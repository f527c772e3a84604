import Choreo.Library.Upserts
import Choreo.Provider
import Mathlib.Algebra.Order.Ring.Int
import Mathlib.Data.String.Basic

/-!
# The catalog overlay

An overlay is a TOML document whose values are merged over the provider catalog
(`choreo-ai-protocols/src/catalog/overlay.rs`). The merge goes through the tables key by key, in
the order of the keys, which is the one in which `toml::Table` holds them. The fields of a provider
are replaced one by one, but `max_tokens_field` lies inside `protocol`, whose key comes later: a
`protocol = "openai"` resets it. Integers are narrowed to 32 bits.
-/

namespace Choreo.Overlay

open Upserts List Option

/-! ### TOML documents -/

/-- A TOML value. Dates and floats, which no field of the overlay takes, are left opaque. -/
inductive Toml
  | string (s : String)
  | integer (n : ℤ)
  | boolean (b : Bool)
  | array (values : List Toml)
  | table (entries : List (String × Toml))
  | other

namespace Toml

def asStr : Toml → Option String
  | string s => some s
  | _ => none

def asInteger : Toml → Option ℤ
  | integer n => some n
  | _ => none

def asBool : Toml → Option Bool
  | boolean b => some b
  | _ => none

def asArray : Toml → Option (List Toml)
  | array values => some values
  | _ => none

def asTable : Toml → Option (List (String × Toml))
  | table entries => some entries
  | _ => none

/-- The keys of every table of a value ascend: a `toml::Table` is sorted by its keys, and the parser
rejects a key that is given twice. -/
inductive Sorted : Toml → Prop
  | string (s : String) : Sorted (string s)
  | integer (n : ℤ) : Sorted (integer n)
  | boolean (b : Bool) : Sorted (boolean b)
  | array (values : List Toml) (h : ∀ v ∈ values, Sorted v) : Sorted (array values)
  | table (entries : List (String × Toml)) (hkeys : Ascending entries)
      (h : ∀ e ∈ entries, Sorted e.2) : Sorted (table entries)
  | other : Sorted other

end Toml

/-- A document as the parser returns it. -/
structure Document where
  value : Toml
  sorted : value.Sorted

/-! ### The catalog -/

inductive MaxTokensField
  | maxTokens
  | maxCompletionTokens
deriving DecidableEq, Repr

inductive ProviderProtocol
  | openAi (maxTokensField : MaxTokensField)
  | anthropicMessages
  | googleGenerativeAi
deriving DecidableEq, Repr

/-- Per-model metadata. The defaults are those of an entry that the overlay adds. -/
structure ModelEntry where
  model : String
  contextWindow : UInt32 := 0
  reasoningSupported : Bool := false
  openaiReasoningLevels : List String := []
  openaiResponses : Bool := false
  reasoningPassback : Option ReasoningPassback := none
  reasoningContentRequired : Option Bool := none
  maxOutputTokens : UInt32 := 0
  supportsTemperature : Bool := true
  deprecated : Bool := false
  supportsVision : Bool := false
deriving DecidableEq, Repr

structure ProviderEntry where
  slug : String
  displayName : String
  protocol : ProviderProtocol
  baseUrl : String
  defaultModel : String
  models : List ModelEntry
deriving DecidableEq, Repr

def newProvider (slug : String) : ProviderEntry where
  slug := slug
  displayName := slug
  protocol := .openAi .maxCompletionTokens
  baseUrl := ""
  defaultModel := ""
  models := []

def newModel (modelId : String) : ModelEntry := { model := modelId }

/-- A catalog: no two providers with one slug, and no two models of a provider with one id. -/
structure Catalog where
  providers : List ProviderEntry
  slugsNodup : (providers.map ProviderEntry.slug).Nodup
  idsNodup : ∀ p ∈ providers, (p.models.map ModelEntry.model).Nodup

/-! ### Reading the scalars -/

def parseProtocol (value : Toml) : Option ProviderProtocol :=
  value.asStr.bind fun s =>
    match s with
    | "openai" => some (.openAi .maxCompletionTokens)
    | "anthropic" => some .anthropicMessages
    | "google" => some .googleGenerativeAi
    | _ => none

def parseMaxTokensField (value : Toml) : Option MaxTokensField :=
  value.asStr.bind fun s =>
    match s with
    | "max_tokens" => some .maxTokens
    | "max_completion_tokens" => some .maxCompletionTokens
    | _ => none

def parsePassback (value : String) : Option ReasoningPassback :=
  match value with
  | "none" => some .none
  | "tool_loop" => some .toolLoop
  | "all_turns" => some .allTurns
  | "signature" => some .signature
  | "response_id" => some .responseId
  | _ => none

/-- The strings of an array. Other elements are dropped. -/
def parseStringArray (array : List Toml) : List String := array.filterMap Toml.asStr

/-- `n.max(0) as u32`. -/
def narrow (n : ℤ) : UInt32 := UInt32.ofNat (max n 0).toNat

/-! ### The merge -/

variable (model : ModelEntry)

/-- Applies one key of a model table. A value of the wrong kind is skipped. -/
def applyModelKey (change : String × Toml) : ModelEntry :=
  let value := change.2
  match change.1 with
  | "context_window" =>
    { model with contextWindow := (value.asInteger.map narrow).getD model.contextWindow }
  | "reasoning_supported" =>
    { model with reasoningSupported := value.asBool.getD model.reasoningSupported }
  | "reasoning_levels" =>
    { model with
      openaiReasoningLevels :=
        (value.asArray.map parseStringArray).getD model.openaiReasoningLevels }
  | "responses" => { model with openaiResponses := value.asBool.getD model.openaiResponses }
  | "reasoning_passback" =>
    { model with
      reasoningPassback := (value.asStr.bind parsePassback).or model.reasoningPassback }
  | "reasoning_content_required" =>
    { model with reasoningContentRequired := value.asBool.or model.reasoningContentRequired }
  | "supports_vision" => { model with supportsVision := value.asBool.getD model.supportsVision }
  | "max_output_tokens" =>
    { model with maxOutputTokens := (value.asInteger.map narrow).getD model.maxOutputTokens }
  | "temperature" =>
    { model with supportsTemperature := value.asBool.getD model.supportsTemperature }
  | "deprecated" => { model with deprecated := value.asBool.getD model.deprecated }
  | _ => model

variable (table : List (String × Toml))

/-- Applies a model table, key by key. -/
def applyModelOverlay : ModelEntry :=
  table.foldl applyModelKey model

/-- Applies the `models` sub-table: updates the entry with an id, or adds one. -/
def applyModelsOverlay (models : List ModelEntry) (value : Toml) : List ModelEntry :=
  match value.asTable with
  | none => models
  | some table =>
    table.foldl
      (fun models entry =>
        match entry.2.asTable with
        | none => models
        | some t => upsert ModelEntry.model applyModelOverlay newModel models (entry.1, t))
      models

def setMaxTokensField (protocol : ProviderProtocol) (field : MaxTokensField) : ProviderProtocol :=
  match protocol with
  | .openAi _ => .openAi field
  | other => other

/-- Applies one key of a provider table. A value of the wrong kind is skipped. -/
def applyProviderKey (entry : ProviderEntry) (change : String × Toml) : ProviderEntry :=
  let value := change.2
  match change.1 with
  | "protocol" => { entry with protocol := (parseProtocol value).getD entry.protocol }
  | "max_tokens_field" =>
    { entry with
      protocol :=
        ((parseMaxTokensField value).map (setMaxTokensField entry.protocol)).getD entry.protocol }
  | "base_url" => { entry with baseUrl := value.asStr.getD entry.baseUrl }
  | "default_model" => { entry with defaultModel := value.asStr.getD entry.defaultModel }
  | "display_name" => { entry with displayName := value.asStr.getD entry.displayName }
  | "models" => { entry with models := applyModelsOverlay entry.models value }
  | _ => entry

def applyProviderOverlay (entry : ProviderEntry) (table : List (String × Toml)) : ProviderEntry :=
  table.foldl applyProviderKey entry

variable (base : List ProviderEntry)

/-- Merges an overlay over a catalog. `none` stands for a text that is not TOML. -/
def mergeOverlay (overlay : Option Toml) : List ProviderEntry :=
  match (overlay.bind Toml.asTable).bind (List.lookup "provider") with
  | none => base
  | some providers =>
    match providers.asTable with
    | none => base
    | some table =>
      table.foldl
        (fun merged entry =>
          match entry.2.asTable with
          | none => merged
          | some t =>
            upsert ProviderEntry.slug applyProviderOverlay newProvider merged (entry.1, t))
        base

/-! ### What the documentation says -/

def providerTable (document : Toml) (slug : String) : Option (List (String × Toml)) :=
  ((document.asTable.bind (List.lookup "provider")).bind Toml.asTable).bind
    (List.lookup slug) |>.bind Toml.asTable

/-- What a provider table gives a model. -/
def modelTable (modelId : String) :
    Option (List (String × Toml)) :=
  (((table.lookup "models").bind Toml.asTable).bind (List.lookup modelId)).bind Toml.asTable

/-- The value that a table gives for a key, if it is valid, and the old value otherwise. -/
def override {α : Type} (key : String) (read : Toml → Option α)
    (old : α) : α :=
  ((table.lookup key).bind read).getD old

/-- The integers that fit a field. -/
def fitting (n : ℤ) : Option UInt32 :=
  if 0 ≤ n ∧ n < 2 ^ 32 then some (UInt32.ofNat n.toNat) else none

/-- A model with the fields that a table gives for its keys, the integers read by `readInteger`. -/
def overrideModel (readInteger : ℤ → Option UInt32) (model : ModelEntry)
    (table : List (String × Toml)) : ModelEntry where
  model := model.model
  contextWindow :=
    override table "context_window" (fun v => v.asInteger.bind readInteger) model.contextWindow
  reasoningSupported := override table "reasoning_supported" Toml.asBool model.reasoningSupported
  openaiReasoningLevels :=
    override table "reasoning_levels" (fun v => v.asArray.map parseStringArray)
      model.openaiReasoningLevels
  openaiResponses := override table "responses" Toml.asBool model.openaiResponses
  reasoningPassback :=
    override table "reasoning_passback" (fun v => (v.asStr.bind parsePassback).map some)
      model.reasoningPassback
  reasoningContentRequired :=
    override table "reasoning_content_required" (fun v => v.asBool.map some)
      model.reasoningContentRequired
  maxOutputTokens :=
    override table "max_output_tokens" (fun v => v.asInteger.bind readInteger)
      model.maxOutputTokens
  supportsTemperature := override table "temperature" Toml.asBool model.supportsTemperature
  deprecated := override table "deprecated" Toml.asBool model.deprecated
  supportsVision := override table "supports_vision" Toml.asBool model.supportsVision

def ProviderProtocol.maxTokensField : ProviderProtocol → MaxTokensField
  | openAi field => field
  | _ => .maxCompletionTokens

def overrideProtocol (old : ProviderProtocol) (table : List (String × Toml)) : ProviderProtocol :=
  setMaxTokensField (override table "protocol" parseProtocol old)
    (override table "max_tokens_field" parseMaxTokensField old.maxTokensField)

/-- A provider as lookups see it: its fields, and for each id its model. -/
@[ext]
structure ProviderView where
  slug : String
  displayName : String
  protocol : ProviderProtocol
  baseUrl : String
  defaultModel : String
  model : String → Option ModelEntry

def ProviderEntry.view (p : ProviderEntry) : ProviderView where
  slug := p.slug
  displayName := p.displayName
  protocol := p.protocol
  baseUrl := p.baseUrl
  defaultModel := p.defaultModel
  model := find ModelEntry.model p.models

/-- A provider with the fields that a table gives. The table is read by its keys only. -/
def overrideProvider (p : ProviderView) (table : List (String × Toml)) : ProviderView where
  slug := p.slug
  displayName := override table "display_name" Toml.asStr p.displayName
  protocol := overrideProtocol p.protocol table
  baseUrl := override table "base_url" Toml.asStr p.baseUrl
  defaultModel := override table "default_model" Toml.asStr p.defaultModel
  model := fun modelId =>
    match modelTable table modelId with
    | none => p.model modelId
    | some t => some (overrideModel fitting ((p.model modelId).getD (newModel modelId)) t)

def providerOrNew (base : Catalog) (slug : String) : ProviderEntry :=
  (find ProviderEntry.slug base.providers slug).getD (newProvider slug)

def modelOrNew (p : ProviderEntry) (modelId : String) : ModelEntry :=
  (find ModelEntry.model p.models modelId).getD (newModel modelId)

/-- The merge is the field-wise override of the documentation. -/
structure FieldWise (base : Catalog) (overlay : Option Document) : Prop where
  slugsNodup : ((mergeOverlay base.providers (overlay.map Document.value)).map
    ProviderEntry.slug).Nodup
  idsNodup : ∀ p ∈ mergeOverlay base.providers (overlay.map Document.value),
    (p.models.map ModelEntry.model).Nodup
  fields : ∀ slug,
    (find ProviderEntry.slug (mergeOverlay base.providers (overlay.map Document.value)) slug).map
        ProviderEntry.view =
      match overlay.bind fun d => providerTable d.value slug with
      | none => (find ProviderEntry.slug base.providers slug).map ProviderEntry.view
      | some table => some (overrideProvider (providerOrNew base slug).view table)
  kept : ∀ p ∈ base.providers,
    ∃ p' ∈ mergeOverlay base.providers (overlay.map Document.value),
      p'.slug = p.slug ∧ ∀ m ∈ p.models, ∃ m' ∈ p'.models, m'.model = m.model
  twice : mergeOverlay (mergeOverlay base.providers (overlay.map Document.value))
      (overlay.map Document.value) =
    mergeOverlay base.providers (overlay.map Document.value)

/-- A table that sets the OpenAI protocol does not lose a max-tokens field by it: the one that it
gives, or else the one of the old entry, is the one of a new provider. -/
def KeepsMaxTokens (old : ProviderProtocol) (table : List (String × Toml)) : Prop :=
  (table.lookup "protocol").bind parseProtocol = some (.openAi .maxCompletionTokens) →
    ((table.lookup "max_tokens_field").bind parseMaxTokensField).getD old.maxTokensField =
      .maxCompletionTokens

/-- An integer of a table fits its field, or it is narrowed to the value that it replaces. -/
def KeepsInteger (key : String) (old : UInt32) : Prop :=
  ∀ n, (table.lookup key).bind Toml.asInteger = some n → (0 ≤ n ∧ n < 2 ^ 32) ∨ narrow n = old

/-- No table of an overlay resets a max-tokens field or gives an integer that does not fit. -/
def KeepsFields (base : Catalog) (overlay : Option Document) : Prop :=
  ∀ slug table, (overlay.bind fun d => providerTable d.value slug) = some table →
    KeepsMaxTokens (providerOrNew base slug).protocol table ∧
      ∀ modelId t, modelTable table modelId = some t →
        KeepsInteger t "context_window"
            (modelOrNew (providerOrNew base slug) modelId).contextWindow ∧
          KeepsInteger t "max_output_tokens"
            (modelOrNew (providerOrNew base slug) modelId).maxOutputTokens

variable {table : List (String × Toml)}

/-! ### Model tables -/

theorem override_cons_same {α : Type} {key : String}
    (h : key ∉ table.map Prod.fst) (value : Toml) (read : Toml → Option α) (old : α) :
    override ((key, value) :: table) key read old =
      override table key read ((read value).getD old) := by
  rw [override, override, lookup_cons, beq_self_eq_true, lookup_eq_none h]
  rfl

theorem override_cons_ne {α : Type} {key key' : String} (h : key' ≠ key)
    (table : List (String × Toml)) (value : Toml) (read : Toml → Option α) (old : α) :
    override ((key, value) :: table) key' read old = override table key' read old := by
  rw [override, override, lookup_cons, beq_eq_false_iff_ne.2 h]

theorem override_twice {α : Type} (key : String)
    (read : Toml → Option α) (old : α) :
    override table key read (override table key read old) = override table key read old := by
  rw [override, override]
  cases (table.lookup key).bind read <;> rfl

theorem getD_map_some {α : Type} (x y : Option α) : (x.map some).getD y = x.or y := by
  cases x <;> rfl

theorem bind_some_map {α β : Type} (f : α → β) (x : Option α) :
    (x.bind fun a => some (f a)) = x.map f := by
  cases x <;> rfl

/-- A model table sets each field by its own key, the integers narrowed. -/
theorem applyModelOverlay_eq
    (htable : (table.map Prod.fst).Nodup) (model : ModelEntry) :
    applyModelOverlay model table = overrideModel (fun n => some (narrow n)) model table := by
  induction table generalizing model with
  | nil => rfl
  | cons change table ih =>
    obtain ⟨key, value⟩ := change
    rw [map_cons, nodup_cons] at htable
    rw [applyModelOverlay, foldl_cons, ← applyModelOverlay, ih htable.2]
    have hkey : key ∉ table.map Prod.fst := htable.1
    rw [applyModelKey]
    split
    -- one of the keys of a model
    case h_11 =>
      rename_i h₁ h₂ h₃ h₄ h₅ h₆ h₇ h₈ h₉ h₁₀
      simp only [overrideModel, override_cons_ne (Ne.symm h₁), override_cons_ne (Ne.symm h₂),
        override_cons_ne (Ne.symm h₃), override_cons_ne (Ne.symm h₄),
        override_cons_ne (Ne.symm h₅), override_cons_ne (Ne.symm h₆),
        override_cons_ne (Ne.symm h₇), override_cons_ne (Ne.symm h₈),
        override_cons_ne (Ne.symm h₉), override_cons_ne (Ne.symm h₁₀)]
    all_goals
      rename_i h
      dsimp only at h
      subst h
      simp (disch := decide) only [overrideModel, override_cons_same hkey, override_cons_ne,
        bind_some_map, getD_map_some]

theorem model_applyModelOverlay :
    (applyModelOverlay model table).model = model.model := by
  induction table generalizing model with
  | nil => rfl
  | cons change table ih =>
    have hstep : (applyModelKey model change).model = model.model := by
      rw [applyModelKey]
      split <;> rfl
    exact (ih _).trans hstep

theorem model_newModel (modelId : String) : (newModel modelId).model = modelId := rfl

/-- An integer field is narrowed to the value that the documentation gives it where it fits, or
where it already had the narrowed value. -/
theorem override_integer_iff (key : String) (old : UInt32) :
    override table key (fun v => v.asInteger.bind fun n => some (narrow n)) old =
        override table key (fun v => v.asInteger.bind fitting) old ↔
      KeepsInteger table key old := by
  have hassoc : ∀ f : ℤ → Option UInt32, override table key (fun v => v.asInteger.bind f) old =
      (((table.lookup key).bind Toml.asInteger).bind f).getD old := by
    intro f
    rw [override, Option.bind_assoc]
  rw [hassoc, hassoc, KeepsInteger]
  cases (table.lookup key).bind Toml.asInteger with
  | none => simp
  | some n =>
    simp only [bind_some, getD_some, some_inj, forall_eq']
    by_cases h : 0 ≤ n ∧ n < 2 ^ 32
    · have hnarrow : narrow n = UInt32.ofNat n.toNat := by rw [narrow, max_eq_left h.1]
      rw [fitting, if_pos h, getD_some, hnarrow, eq_self, true_iff]
      exact .inl h
    · rw [fitting, if_neg h, getD_none, or_iff_right h]

theorem overrideModel_iff :
    overrideModel (fun n => some (narrow n)) model table = overrideModel fitting model table ↔
      KeepsInteger table "context_window" model.contextWindow ∧
        KeepsInteger table "max_output_tokens" model.maxOutputTokens := by
  rw [← override_integer_iff, ← override_integer_iff]
  constructor
  · intro h
    exact ⟨congrArg ModelEntry.contextWindow h, congrArg ModelEntry.maxOutputTokens h⟩
  · rintro ⟨hwindow, htokens⟩
    simp only [overrideModel, hwindow, htokens]

theorem applyModelOverlay_twice
    (htable : (table.map Prod.fst).Nodup) (model : ModelEntry) :
    applyModelOverlay (applyModelOverlay model table) table = applyModelOverlay model table := by
  simp only [applyModelOverlay_eq htable, overrideModel, override_twice]

variable {value : Toml}

/-! ### Models of a provider -/

theorem Toml.Sorted.of_asTable (h : value.Sorted)
    (htable : value.asTable = some table) :
    Ascending table ∧ ∀ e ∈ table, e.2.Sorted := by
  cases h with
  | table entries hkeys hvalues =>
    obtain rfl : entries = table := by simpa [Toml.asTable] using htable
    exact ⟨hkeys, hvalues⟩
  | _ => simp [Toml.asTable] at htable

theorem sorted_of_lookup (h : ∀ e ∈ table, e.2.Sorted)
    {key : String} (hvalue : table.lookup key = some value) : value.Sorted :=
  h _ (mem_of_lookup hvalue)

theorem sorted_of_mem_readable
    (h : ∀ e ∈ table, e.2.Sorted) {change : String × List (String × Toml)}
    (hchange : change ∈ readable Toml.asTable table) :
    Ascending change.2 ∧ ∀ e ∈ change.2, e.2.Sorted := by
  obtain ⟨e, he, hread⟩ := mem_filterMap.1 hchange
  obtain ⟨t, ht, rfl⟩ := map_eq_some_iff.1 hread
  exact (h e he).of_asTable ht

theorem applyModelsOverlay_eq
    (htable : value.asTable = some table) (models : List ModelEntry) :
    applyModelsOverlay models value =
      (readable Toml.asTable table).foldl (upsert ModelEntry.model applyModelOverlay newModel)
        models := by
  rw [applyModelsOverlay, htable]
  refine foldl_readable ?_ table models
  intro models entry
  cases entry.2.asTable <;> rfl

theorem prefix_applyModelsOverlay (models : List ModelEntry) (value : Toml) :
    models.map ModelEntry.model <+: (applyModelsOverlay models value).map ModelEntry.model := by
  cases htable : value.asTable with
  | none =>
    have hsame : applyModelsOverlay models value = models := by rw [applyModelsOverlay, htable]
    exact hsame.symm ▸ prefix_rfl
  | some table =>
    rw [applyModelsOverlay_eq htable]
    exact prefix_foldl_upsert model_applyModelOverlay model_newModel models _

variable {models : List ModelEntry}

theorem nodup_applyModelsOverlay
    (h : (models.map ModelEntry.model).Nodup) (value : Toml) :
    ((applyModelsOverlay models value).map ModelEntry.model).Nodup := by
  cases htable : value.asTable with
  | none =>
    rw [applyModelsOverlay, htable]
    exact h
  | some table =>
    rw [applyModelsOverlay_eq htable]
    exact nodup_foldl_upsert model_applyModelOverlay model_newModel h _

theorem applyModelsOverlay_twice (hvalue : value.Sorted)
    (h : (models.map ModelEntry.model).Nodup) :
    applyModelsOverlay (applyModelsOverlay models value) value =
      applyModelsOverlay models value := by
  cases htable : value.asTable with
  | none => simp only [applyModelsOverlay, htable]
  | some table =>
    obtain ⟨hkeys, hvalues⟩ := hvalue.of_asTable htable
    simp only [applyModelsOverlay_eq htable]
    exact foldl_upsert_twice model_applyModelOverlay model_newModel h
      ((sublist_readable table).nodup hkeys.nodup) fun change hchange model _ =>
        applyModelOverlay_twice (sorted_of_mem_readable hvalues hchange).1.nodup model

theorem find_applyModelsOverlay (hvalue : value.Sorted)
    (models : List ModelEntry) (modelId : String) :
    find ModelEntry.model (applyModelsOverlay models value) modelId =
      match ((value.asTable).bind (List.lookup modelId)).bind Toml.asTable with
      | none => find ModelEntry.model models modelId
      | some t =>
        some (applyModelOverlay
          ((find ModelEntry.model models modelId).getD (newModel modelId)) t) := by
  cases htable : value.asTable with
  | none =>
    rw [applyModelsOverlay, htable]
    rfl
  | some table =>
    obtain ⟨hkeys, -⟩ := hvalue.of_asTable htable
    rw [applyModelsOverlay_eq htable, find_foldl_upsert model_applyModelOverlay model_newModel
      ((sublist_readable table).nodup hkeys.nodup), lookup_readable hkeys.nodup, bind_some]
    cases (table.lookup modelId).bind Toml.asTable <;> rfl

/-! ### Provider tables -/

/-- The models after all keys of a provider table. -/
def modelsAfter (models : List ModelEntry) (table : List (String × Toml)) : List ModelEntry :=
  (table.lookup "models").elim models (applyModelsOverlay models)

theorem modelsAfter_cons_same (h : "models" ∉ table.map Prod.fst)
    (models : List ModelEntry) (value : Toml) :
    modelsAfter models (("models", value) :: table) =
      modelsAfter (applyModelsOverlay models value) table := by
  rw [modelsAfter, modelsAfter, lookup_cons, beq_self_eq_true, lookup_eq_none h]
  rfl

theorem modelsAfter_cons_ne {key : String} (h : "models" ≠ key) (models : List ModelEntry)
    (value : Toml) (table : List (String × Toml)) :
    modelsAfter models ((key, value) :: table) = modelsAfter models table := by
  rw [modelsAfter, modelsAfter, lookup_cons, beq_eq_false_iff_ne.2 h]

/-- What a key of a provider table does to the protocol. -/
def protocolStep (protocol : ProviderProtocol) (change : String × Toml) : ProviderProtocol :=
  if change.1 = "max_tokens_field" then
    ((parseMaxTokensField change.2).map (setMaxTokensField protocol)).getD protocol
  else if change.1 = "protocol" then (parseProtocol change.2).getD protocol
  else protocol

/-- A provider table sets each field by its own key, but for the protocol, which two keys change. -/
theorem applyProviderOverlay_eq
    (htable : (table.map Prod.fst).Nodup) (entry : ProviderEntry) :
    applyProviderOverlay entry table =
      { slug := entry.slug
        displayName := override table "display_name" Toml.asStr entry.displayName
        protocol := table.foldl protocolStep entry.protocol
        baseUrl := override table "base_url" Toml.asStr entry.baseUrl
        defaultModel := override table "default_model" Toml.asStr entry.defaultModel
        models := modelsAfter entry.models table } := by
  induction table generalizing entry with
  | nil => rfl
  | cons change table ih =>
    obtain ⟨key, value⟩ := change
    rw [map_cons, nodup_cons] at htable
    rw [applyProviderOverlay, foldl_cons, ← applyProviderOverlay, ih htable.2,
      foldl_cons, protocolStep, applyProviderKey]
    have hkey : key ∉ table.map Prod.fst := htable.1
    split
    -- one of the keys of a provider
    case h_6 =>
      rename_i h
      dsimp only at h
      subst h
      simp (disch := decide) only [override_cons_ne, modelsAfter_cons_same hkey, if_neg]
    case h_7 =>
      rename_i h₁ h₂ h₃ h₄ h₅ h₆
      simp only [override_cons_ne (Ne.symm h₃), override_cons_ne (Ne.symm h₄),
        override_cons_ne (Ne.symm h₅), modelsAfter_cons_ne (Ne.symm h₆), if_neg h₁, if_neg h₂]
    all_goals
      rename_i h
      dsimp only at h
      subst h
      simp (disch := decide) only [override_cons_same hkey, override_cons_ne,
        modelsAfter_cons_ne, if_neg, if_pos]

theorem parseProtocol_openAi {field : MaxTokensField}
    (h : parseProtocol value = some (.openAi field)) : field = .maxCompletionTokens := by
  obtain ⟨s, -, hs⟩ := bind_eq_some_iff.1 h
  split at hs <;> simp_all

theorem foldl_protocolStep_eq
    (htable : Ascending table) (old : ProviderProtocol) :
    table.foldl protocolStep old =
      override table "protocol" parseProtocol
        ((((table.lookup "max_tokens_field").bind parseMaxTokensField).map
          (setMaxTokensField old)).getD old) := by
  have hfold := @foldl_two _ _ _ _ table _ protocolStep "max_tokens_field" "protocol"
    (fun s v => ((parseMaxTokensField v).map (setMaxTokensField s)).getD s)
    (fun s v => (parseProtocol v).getD s) (by decide) (fun _ _ => rfl) htable old
  rw [hfold, override]
  cases table.lookup "protocol" <;> cases table.lookup "max_tokens_field" <;> rfl

theorem bind_parseProtocol {value : Option Toml} {field : MaxTokensField}
    (h : value.bind parseProtocol = some (.openAi field)) : field = .maxCompletionTokens := by
  obtain ⟨v, -, hv⟩ := bind_eq_some_iff.1 h
  exact parseProtocol_openAi hv

/-- The protocol after a provider table is the one that the documentation gives it if and only if
the table does not lose a max-tokens field. -/
theorem foldl_protocolStep_iff
    (htable : Ascending table) (old : ProviderProtocol) :
    table.foldl protocolStep old = overrideProtocol old table ↔ KeepsMaxTokens old table := by
  have hopenAi : ∀ field, (table.lookup "protocol").bind parseProtocol = some (.openAi field) →
      field = .maxCompletionTokens := fun field h => bind_parseProtocol h
  rw [foldl_protocolStep_eq htable, overrideProtocol, override, override, override, KeepsMaxTokens]
  generalize (table.lookup "protocol").bind parseProtocol = protocol at hopenAi ⊢
  generalize (table.lookup "max_tokens_field").bind parseMaxTokensField = field
  -- the protocol given, the field given, and the protocol before
  cases protocol with
  | none =>
    cases field with
    | none => cases old <;> simp [setMaxTokensField, ProviderProtocol.maxTokensField]
    | some f => cases old <;> simp [setMaxTokensField]
  | some p =>
    cases p with
    | openAi f₀ =>
      obtain rfl := hopenAi f₀ rfl
      cases field with
      | none => cases old <;> simp [setMaxTokensField, ProviderProtocol.maxTokensField, eq_comm]
      | some f => simp [setMaxTokensField, eq_comm]
    | anthropicMessages | googleGenerativeAi => cases field <;> simp [setMaxTokensField]

/-- A protocol set by a table once more stays as it is. -/
theorem foldl_protocolStep_twice
    (htable : Ascending table) (old : ProviderProtocol) :
    table.foldl protocolStep (table.foldl protocolStep old) = table.foldl protocolStep old := by
  simp only [foldl_protocolStep_eq htable, override]
  generalize (table.lookup "protocol").bind parseProtocol = protocol
  generalize (table.lookup "max_tokens_field").bind parseMaxTokensField = field
  cases protocol with
  | none =>
    cases field with
    | none => simp
    | some f => cases old <;> simp [setMaxTokensField]
  | some p =>
    cases field with
    | none | some f => simp

theorem slug_applyProviderOverlay (entry : ProviderEntry) (table : List (String × Toml)) :
    (applyProviderOverlay entry table).slug = entry.slug := by
  induction table generalizing entry with
  | nil => rfl
  | cons change table ih =>
    have hstep : (applyProviderKey entry change).slug = entry.slug := by
      rw [applyProviderKey]
      split <;> rfl
    exact (ih _).trans hstep

theorem slug_newProvider (slug : String) : (newProvider slug).slug = slug := rfl

theorem nodup_modelsAfter (h : (models.map ModelEntry.model).Nodup)
    (table : List (String × Toml)) :
    ((modelsAfter models table).map ModelEntry.model).Nodup := by
  rw [modelsAfter]
  cases table.lookup "models" with
  | none => exact h
  | some value => exact nodup_applyModelsOverlay h value

theorem prefix_modelsAfter (models : List ModelEntry) (table : List (String × Toml)) :
    models.map ModelEntry.model <+: (modelsAfter models table).map ModelEntry.model := by
  rw [modelsAfter]
  cases table.lookup "models" with
  | none => exact prefix_rfl
  | some value => exact prefix_applyModelsOverlay models value

theorem modelsAfter_twice (htable : ∀ e ∈ table, e.2.Sorted)
    (h : (models.map ModelEntry.model).Nodup) :
    modelsAfter (modelsAfter models table) table = modelsAfter models table := by
  cases hlookup : table.lookup "models" with
  | none => simp only [modelsAfter, hlookup, elim_none]
  | some value =>
    simp only [modelsAfter, hlookup, elim_some]
    exact applyModelsOverlay_twice (sorted_of_lookup htable hlookup) h

theorem nodup_modelTable (htable : ∀ e ∈ table, e.2.Sorted)
    {modelId : String} {t : List (String × Toml)} (ht : modelTable table modelId = some t) :
    (t.map Prod.fst).Nodup := by
  obtain ⟨value, hvalue, hasTable⟩ := bind_eq_some_iff.1 ht
  obtain ⟨models, hmodels, hlookup⟩ := bind_eq_some_iff.1 hvalue
  obtain ⟨outer, houter, hmodelsTable⟩ := bind_eq_some_iff.1 hmodels
  have hinner := ((sorted_of_lookup htable houter).of_asTable hmodelsTable).2
  exact ((sorted_of_lookup hinner hlookup).of_asTable hasTable).1.nodup

theorem find_modelsAfter (htable : ∀ e ∈ table, e.2.Sorted)
    (models : List ModelEntry) (modelId : String) :
    find ModelEntry.model (modelsAfter models table) modelId =
      match modelTable table modelId with
      | none => find ModelEntry.model models modelId
      | some t =>
        some (applyModelOverlay
          ((find ModelEntry.model models modelId).getD (newModel modelId)) t) := by
  rw [modelsAfter, modelTable]
  cases hlookup : table.lookup "models" with
  | none => rfl
  | some value => exact find_applyModelsOverlay (sorted_of_lookup htable hlookup) models modelId

theorem applyProviderOverlay_twice
    (hkeys : Ascending table) (htable : ∀ e ∈ table, e.2.Sorted)
    {entry : ProviderEntry} (h : (entry.models.map ModelEntry.model).Nodup) :
    applyProviderOverlay (applyProviderOverlay entry table) table =
      applyProviderOverlay entry table := by
  simp only [applyProviderOverlay_eq hkeys.nodup, override_twice, modelsAfter_twice htable h,
    foldl_protocolStep_twice hkeys]

/-- The tables of a model that the documentation reads differently than the code. -/
theorem view_applyProviderOverlay_iff
    (hkeys : Ascending table) (htable : ∀ e ∈ table, e.2.Sorted)
    (entry : ProviderEntry) :
    (applyProviderOverlay entry table).view = overrideProvider entry.view table ↔
      KeepsMaxTokens entry.protocol table ∧
        ∀ modelId t, modelTable table modelId = some t →
          KeepsInteger t "context_window" (modelOrNew entry modelId).contextWindow ∧
            KeepsInteger t "max_output_tokens" (modelOrNew entry modelId).maxOutputTokens := by
  rw [applyProviderOverlay_eq hkeys.nodup]
  have hmodel : ∀ modelId t, modelTable table modelId = some t →
      (some (applyModelOverlay (modelOrNew entry modelId) t) =
          some (overrideModel fitting (modelOrNew entry modelId) t) ↔
        KeepsInteger t "context_window" (modelOrNew entry modelId).contextWindow ∧
          KeepsInteger t "max_output_tokens" (modelOrNew entry modelId).maxOutputTokens) := by
    intro modelId t ht
    rw [some_inj, applyModelOverlay_eq (nodup_modelTable htable ht), overrideModel_iff]
  have hview : ∀ modelId t, modelTable table modelId = some t →
      (find ModelEntry.model (modelsAfter entry.models table) modelId =
          (overrideProvider entry.view table).model modelId ↔
        some (applyModelOverlay (modelOrNew entry modelId) t) =
          some (overrideModel fitting (modelOrNew entry modelId) t)) := by
    intro modelId t ht
    rw [find_modelsAfter htable, overrideProvider]
    simp only [ht]
    rfl
  constructor
  · intro h
    refine ⟨(foldl_protocolStep_iff hkeys _).1 (congrArg ProviderView.protocol h), ?_⟩
    intro modelId t ht
    exact (hmodel modelId t ht).1
      ((hview modelId t ht).1 (congrFun (congrArg ProviderView.model h) modelId))
  · rintro ⟨hprotocol, hmodels⟩
    refine ProviderView.ext rfl rfl ((foldl_protocolStep_iff hkeys _).2 hprotocol) rfl rfl ?_
    funext modelId
    cases ht : modelTable table modelId with
    | none =>
      change find ModelEntry.model (modelsAfter entry.models table) modelId = _
      rw [find_modelsAfter htable, overrideProvider]
      simp only [ht]
      rfl
    | some t =>
      exact (hview modelId t ht).2 ((hmodel modelId t ht).2 (hmodels modelId t ht))

/-! ### The merge -/

/-- The `provider` table of a document. -/
def providersTable (overlay : Option Toml) : Option (List (String × Toml)) :=
  ((overlay.bind Toml.asTable).bind (List.lookup "provider")).bind Toml.asTable

theorem mergeOverlay_eq (overlay : Option Toml) :
    mergeOverlay base overlay =
      match providersTable overlay with
      | none => base
      | some table =>
        (readable Toml.asTable table).foldl
          (upsert ProviderEntry.slug applyProviderOverlay newProvider) base := by
  rw [mergeOverlay, providersTable]
  cases (overlay.bind Toml.asTable).bind (List.lookup "provider") with
  | none => rfl
  | some providers =>
    cases htable : providers.asTable with
    | none => simp only [htable, bind_some]
    | some table =>
      simp only [htable, bind_some]
      refine foldl_readable ?_ table base
      intro merged entry
      cases entry.2.asTable <;> rfl

theorem sorted_providersTable {document : Document}
    (h : providersTable (some document.value) = some table) :
    Ascending table ∧ ∀ e ∈ table, e.2.Sorted := by
  obtain ⟨providers, hproviders, hasTable⟩ := bind_eq_some_iff.1 h
  obtain ⟨outer, houter, hlookup⟩ := bind_eq_some_iff.1 hproviders
  have hsorted := (document.sorted.of_asTable houter).2
  exact (sorted_of_lookup hsorted hlookup).of_asTable hasTable

theorem sorted_providerTable {overlay : Option Document} {slug : String}
    (h : (overlay.bind fun d => providerTable d.value slug) = some table) :
    Ascending table ∧ ∀ e ∈ table, e.2.Sorted := by
  obtain ⟨document, rfl, hprovider⟩ := bind_eq_some_iff.1 h
  obtain ⟨value, hvalue, hasTable⟩ := bind_eq_some_iff.1 hprovider
  obtain ⟨providers, hproviders, hlookup⟩ := bind_eq_some_iff.1 hvalue
  exact (sorted_of_lookup (sorted_providersTable hproviders).2 hlookup).of_asTable hasTable

theorem find_mergeOverlay (overlay : Option Document) (slug : String) :
    find ProviderEntry.slug (mergeOverlay base (overlay.map Document.value)) slug =
      match overlay.bind fun d => providerTable d.value slug with
      | none => find ProviderEntry.slug base slug
      | some table =>
        some (applyProviderOverlay
          ((find ProviderEntry.slug base slug).getD (newProvider slug)) table) := by
  rw [mergeOverlay_eq]
  cases overlay with
  | none => rfl
  | some document =>
    have htables : providerTable document.value slug =
        ((providersTable (some document.value)).bind (List.lookup slug)).bind Toml.asTable := rfl
    rw [map_some, bind_some, htables]
    cases hproviders : providersTable (some document.value) with
    | none => rfl
    | some table =>
      have hkeys := (sorted_providersTable hproviders).1
      dsimp only
      rw [find_foldl_upsert slug_applyProviderOverlay slug_newProvider
        ((sublist_readable table).nodup hkeys.nodup), lookup_readable hkeys.nodup, bind_some]
      cases (table.lookup slug).bind Toml.asTable <;> rfl

theorem prefix_mergeOverlay (overlay : Option Toml) :
    base.map ProviderEntry.slug <+: (mergeOverlay base overlay).map ProviderEntry.slug := by
  rw [mergeOverlay_eq]
  cases providersTable overlay with
  | none => exact prefix_rfl
  | some table => exact prefix_foldl_upsert slug_applyProviderOverlay slug_newProvider base _

theorem nodup_mergeOverlay {base : List ProviderEntry}
    (h : (base.map ProviderEntry.slug).Nodup) (overlay : Option Toml) :
    ((mergeOverlay base overlay).map ProviderEntry.slug).Nodup := by
  rw [mergeOverlay_eq]
  cases providersTable overlay with
  | none => exact h
  | some table => exact nodup_foldl_upsert slug_applyProviderOverlay slug_newProvider h _

theorem nodup_models_providerOrNew (base : Catalog) (slug : String) :
    ((providerOrNew base slug).models.map ModelEntry.model).Nodup := by
  rw [providerOrNew]
  cases hfind : find ProviderEntry.slug base.providers slug with
  | none => exact nodup_nil
  | some p => exact base.idsNodup p (mem_of_find hfind)

theorem models_mergeOverlay (base : Catalog) (overlay : Option Document) {p : ProviderEntry}
    (hp : p ∈ mergeOverlay base.providers (overlay.map Document.value)) :
    (p.models.map ModelEntry.model).Nodup := by
  have hfind := find_of_mem (nodup_mergeOverlay base.slugsNodup (overlay.map Document.value)) hp
  rw [find_mergeOverlay] at hfind
  cases htable : overlay.bind fun d => providerTable d.value p.slug with
  | none =>
    simp only [htable] at hfind
    exact base.idsNodup p (mem_of_find hfind)
  | some table =>
    simp only [htable, some_inj] at hfind
    rw [← hfind, applyProviderOverlay_eq (sorted_providerTable htable).1.nodup]
    exact nodup_modelsAfter (nodup_models_providerOrNew base p.slug) table

theorem kept_mergeOverlay (base : Catalog) (overlay : Option Document) {p : ProviderEntry}
    (hp : p ∈ base.providers) :
    ∃ p' ∈ mergeOverlay base.providers (overlay.map Document.value),
      p'.slug = p.slug ∧ ∀ m ∈ p.models, ∃ m' ∈ p'.models, m'.model = m.model := by
  have hbase := find_of_mem base.slugsNodup hp
  have hfind := find_mergeOverlay base.providers overlay p.slug
  cases htable : overlay.bind fun d => providerTable d.value p.slug with
  | none =>
    simp only [htable, hbase] at hfind
    exact ⟨p, mem_of_find hfind, rfl, fun m hm => ⟨m, hm, rfl⟩⟩
  | some table =>
    simp only [htable, hbase, getD_some] at hfind
    refine ⟨_, mem_of_find hfind, slug_applyProviderOverlay p table, ?_⟩
    intro m hm
    rw [applyProviderOverlay_eq (sorted_providerTable htable).1.nodup]
    exact List.mem_map.1 ((prefix_modelsAfter p.models table).subset (List.mem_map_of_mem hm))

theorem mergeOverlay_twice (base : Catalog) (overlay : Option Document) :
    mergeOverlay (mergeOverlay base.providers (overlay.map Document.value))
        (overlay.map Document.value) =
      mergeOverlay base.providers (overlay.map Document.value) := by
  simp only [mergeOverlay_eq]
  cases overlay with
  | none => rfl
  | some document =>
    rw [map_some]
    cases hproviders : providersTable (some document.value) with
    | none => rfl
    | some table =>
      obtain ⟨hkeys, hvalues⟩ := sorted_providersTable hproviders
      refine foldl_upsert_twice slug_applyProviderOverlay slug_newProvider base.slugsNodup
        ((sublist_readable table).nodup hkeys.nodup) ?_
      rintro change hchange e rfl
      obtain ⟨hascending, hsorted⟩ := sorted_of_mem_readable hvalues hchange
      exact applyProviderOverlay_twice hascending hsorted (nodup_models_providerOrNew base change.1)

/-- A merge is field-wise exactly where the overlay resets no max-tokens field that it or the base
gives, and narrows no integer. All else that the documentation says holds of every merge. -/
theorem fieldWise_iff_keepsFields (base : Catalog) (overlay : Option Document) :
    FieldWise base overlay ↔ KeepsFields base overlay := by
  have hfields : ∀ slug table, (overlay.bind fun d => providerTable d.value slug) = some table →
      ((applyProviderOverlay (providerOrNew base slug) table).view =
          overrideProvider (providerOrNew base slug).view table ↔ _) := fun slug table htable =>
    view_applyProviderOverlay_iff (sorted_providerTable htable).1
      (sorted_providerTable htable).2 (providerOrNew base slug)
  constructor
  · intro h slug table htable
    have hview := h.fields slug
    simp only [find_mergeOverlay, htable, map_some, some_inj] at hview
    exact (hfields slug table htable).1 hview
  · intro h
    refine ⟨nodup_mergeOverlay base.slugsNodup _, fun p hp => models_mergeOverlay base overlay hp,
      ?_, fun p hp => kept_mergeOverlay base overlay hp, mergeOverlay_twice base overlay⟩
    intro slug
    rw [find_mergeOverlay]
    cases htable : overlay.bind fun d => providerTable d.value slug with
    | none => rfl
    | some table =>
      exact congrArg some ((hfields slug table htable).2 (h slug table htable))

def acme : Catalog where
  providers := [{ newProvider "acme" with displayName := "Acme" }]
  slugsNodup := by decide
  idsNodup := by decide

def fieldThenProtocol : Document where
  value := .table [("provider", .table [("acme", .table
    [("max_tokens_field", .string "max_tokens"), ("protocol", .string "openai")])])]
  sorted := by
    refine .table _ (by decide) ?_
    rintro e he
    obtain rfl := mem_singleton.1 he
    refine .table _ (by decide) ?_
    rintro e he
    obtain rfl := mem_singleton.1 he
    refine .table _ (by decide) ?_
    rintro e he
    rcases mem_cons.1 he with rfl | he
    · exact .string _
    · obtain rfl := mem_singleton.1 he
      exact .string _

/-- The protocol, whose key is the larger one, resets the max-tokens field. -/
theorem not_fieldWise_fieldThenProtocol : ¬ FieldWise acme (some fieldThenProtocol) := by
  intro h
  have hprotocol := congrArg (Option.map ProviderView.protocol) (h.fields "acme")
  exact absurd hprotocol (by decide)

end Choreo.Overlay
