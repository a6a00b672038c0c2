import ProviderCore.Lib.Table
import ProviderCore.Usage.CanonicalPricing

/-!
# The price catalog

Parsing a catalog body and looking prices up in it (`provider-usage/src/catalog.rs`).  The JSON
reader is a parameter: it gives the records of a body, in which every price is still the text of
the body.  The maps of the source have no order, so a catalog is a table whose rows may come in any
order; an attempt sees a catalog through its exact lookup alone (`ParsedCatalog.snapshot`).
-/

namespace ProviderCore.Usage

open List

/-! ## Raw records -/

/-- The seven prices of a cost block as raw JSON texts. -/
structure RawPrices where
  input : Option String := none
  output : Option String := none
  reasoning : Option String := none
  cacheRead : Option String := none
  cacheWrite : Option String := none
  inputAudio : Option String := none
  outputAudio : Option String := none
deriving DecidableEq

/-- A cost block with both encodings of context tiers. -/
structure RawCost extends RawPrices where
  tiers : Option String := none
  contextOver200k : Option String := none
deriving DecidableEq

structure RawTierSelector where
  kind : String
  size : U64
deriving DecidableEq

structure RawTierCost extends RawPrices where
  tier : RawTierSelector
deriving DecidableEq

/-- The legacy block of prices above 200k tokens. -/
abbrev RawContextCost := RawPrices

structure RawModel where
  cost : Option RawCost
deriving DecidableEq

structure RawProvider where
  models : Table fun model : String × RawModel => model.1

/-- The providers of a body by their ids. -/
abbrev RawCatalog := Table fun provider : String × RawProvider => provider.1

/-- The JSON reader, for each type that is read from a text. -/
structure CatalogReader where
  catalog : String → Option RawCatalog
  tierCosts : String → Option (List RawTierCost)
  contextCost : String → Option RawContextCost

/-! ## Prices of a block -/

/-- A raw price; an explicit `null` is an absent one. -/
def optionalPrice (raw : Option String) : Option (Option UnitPrice) :=
  match raw with
  | none => some none
  | some text => if text = "null" then some none else (parseUnitPrice text).map some

/-- The prices of a block, `none` if one that is present cannot be read. -/
def componentPricesFromFields (cost : RawPrices) : Option ComponentPrices := do
  let uncachedInput ← optionalPrice cost.input
  let cacheRead ← optionalPrice cost.cacheRead
  let cacheWrite ← optionalPrice cost.cacheWrite
  let output ← optionalPrice cost.output
  let reasoning ← optionalPrice cost.reasoning
  let inputAudio ← optionalPrice cost.inputAudio
  let outputAudio ← optionalPrice cost.outputAudio
  return {
    uncachedInputPerMillion := uncachedInput
    cacheReadPerMillion := cacheRead
    cacheWritePerMillion := cacheWrite
    outputPerMillion := output
    reasoningPerMillion := reasoning
    inputAudioPerMillion := inputAudio
    outputAudioPerMillion := outputAudio }

def componentPrices (cost : RawCost) : Option ComponentPrices :=
  componentPricesFromFields cost.toRawPrices

/-! ## Tiers -/

/-- A tier with at least one price. -/
def pricedTier (thresholdTokens : U64) (cost : RawPrices) : Option ProviderModelPricingTier :=
  (componentPricesFromFields cost).bind fun prices =>
    if prices = {} then none else some (modelPricingTier thresholdTokens prices)

/-- One entry of the explicit encoding. -/
def explicitTier (tier : RawTierCost) : Option ProviderModelPricingTier :=
  if tier.tier.kind ≠ "context" then none else pricedTier tier.tier.size tier.toRawPrices

/-- Two neighbours with one threshold. -/
def hasRepeatedThreshold : List ProviderModelPricingTier → Bool
  | first :: second :: rest =>
    decide (first.thresholdTokens = second.thresholdTokens) || hasRepeatedThreshold (second :: rest)
  | _ => false

def sortByThreshold (tiers : List ProviderModelPricingTier) : List ProviderModelPricingTier :=
  tiers.insertionSort fun tier tier' => tier.thresholdTokens.val ≤ tier'.thresholdTokens.val

/-- The explicit tiers, in the order of their thresholds. -/
def explicitTiers (rawTiers : List RawTierCost) : Option (List ProviderModelPricingTier) :=
  (rawTiers.mapM explicitTier).bind fun tiers =>
    if hasRepeatedThreshold (sortByThreshold tiers) then none else some (sortByThreshold tiers)

/-- A raw text that is not `null`. -/
def presentText (raw : Option String) : Option String :=
  raw.filter fun text => Text.trim text ≠ "null"

/-- The tiers of a cost block.  The explicit encoding wins over the legacy one. -/
def parseModelPricingTiers (reader : CatalogReader) (cost : RawCost) :
    Option (List ProviderModelPricingTier) :=
  match presentText cost.tiers with
  | some raw => (reader.tierCosts raw).bind explicitTiers
  | none =>
    match presentText cost.contextOver200k with
    | none => some []
    | some raw => (reader.contextCost raw).bind fun tier =>
        (pricedTier (.lit 200000 (Eq.refl true)) tier).map fun tier => [tier]

/-! ## The catalog -/

inductive CatalogPricing
  | priced (prices : ComponentPrices) (modelTiers : List ProviderModelPricingTier)
  | noCost
  | invalid
deriving DecidableEq

def catalogPricing (reader : CatalogReader) (model : RawModel) : CatalogPricing :=
  match model.cost with
  | none => .noCost
  | some cost =>
    match componentPrices cost, parseModelPricingTiers reader cost with
    | some prices, some modelTiers => .priced prices modelTiers
    | _, _ => .invalid

inductive CatalogParseError
  | tooLarge
  | malformed
deriving DecidableEq

def maxCatalogBytes : ℕ := 16 * 1024 * 1024

/-- An entry by the ids of its provider and its model. -/
abbrev CatalogEntry := (String × String) × CatalogPricing

structure ParsedCatalog where
  revision : String
  entries : Table fun entry : CatalogEntry => entry.1

/-- The entries of a body, provider by provider. -/
def catalogRows (reader : CatalogReader) (raw : RawCatalog) : List CatalogEntry :=
  raw.rows.flatMap fun provider => provider.2.models.rows.map fun model =>
    ((provider.1, model.1), catalogPricing reader model.2)

theorem nodup_catalogRows (reader : CatalogReader) (raw : RawCatalog) :
    ((catalogRows reader raw).map fun entry => entry.1).Nodup := by
  rw [catalogRows, map_flatMap, nodup_flatMap]
  constructor
  · -- the models of one provider have distinct ids
    intro provider _
    have hmodels := provider.2.models.nodup
    rw [map_map]
    refine List.Nodup.of_map Prod.snd ?_
    rwa [map_map]
  · refine (pairwise_map.mp raw.nodup).imp fun hne => ?_
    rintro _ hkey hkey'
    simp only [map_map, mem_map, Function.comp_apply] at hkey hkey'
    obtain ⟨_, _, rfl⟩ := hkey
    obtain ⟨_, _, heq⟩ := hkey'
    exact hne (congrArg Prod.fst heq).symm

def ParsedCatalog.parse (reader : CatalogReader) (body revision : String) :
    Except CatalogParseError ParsedCatalog :=
  if maxCatalogBytes < body.utf8ByteSize then .error .tooLarge
  else match reader.catalog body with
    | none => .error .malformed
    | some raw => .ok ⟨revision, catalogRows reader raw, nodup_catalogRows reader raw⟩

def modelPricingFromEntry (entry : CatalogPricing) : Option ProviderModelPricing :=
  match entry with
  | .priced prices modelTiers =>
    some { modelPricingFromComponents prices with tiers := modelTiers }
  | .noCost => none
  | .invalid => none

/-- The provider whose entry decides for the models with a well-known name. -/
def officialCatalogProvider (model : String) : Option String :=
  let startsWith (start : String) : Bool := decide (start.toList <+: model.toList)
  if startsWith "grok-" then some "xai"
  else if startsWith "qwen" then some "alibaba"
  else if startsWith "gpt-" || startsWith "chatgpt-" || startsWith "codex-" ||
      ["o1", "o3", "o4-mini"].contains model || startsWith "o1-" || startsWith "o3-" ||
      startsWith "o4-" then some "openai"
  else if startsWith "claude-" then some "anthropic"
  else if startsWith "gemini-" || startsWith "gemma-" then some "google"
  else if startsWith "deepseek-" then some "deepseek"
  else if startsWith "kimi-" then some "moonshotai"
  else if startsWith "minimax-" || startsWith "MiniMax-" then some "minimax"
  else if startsWith "glm-" then some "zhipuai"
  else if startsWith "mistral-" || startsWith "codestral-" || startsWith "devstral-" ||
      startsWith "magistral-" || startsWith "ministral-" || startsWith "pixtral-" ||
      startsWith "open-mistral-" || startsWith "open-mixtral-" then some "mistral"
  else if startsWith "command-" || startsWith "c4ai-aya-" then some "cohere"
  else if startsWith "amazon." then some "amazon-bedrock"
  else none

namespace ParsedCatalog

/-- The loop over all entries: every entry of the model has a price and they agree. -/
def agreedPricing (model : String) (candidate : Option ProviderModelPricing) :
    List CatalogEntry → Option ProviderModelPricing
  | [] => candidate
  | entry :: rest =>
    if entry.1.2 ≠ model then agreedPricing model candidate rest
    else match modelPricingFromEntry entry.2 with
      | none => none
      | some pricing =>
        match candidate with
        | some current =>
          if current ≠ pricing then none else agreedPricing model candidate rest
        | none => agreedPricing model (some pricing) rest

section

variable (catalog : ParsedCatalog)

def exactModelPricing (model : String) : Option ProviderModelPricing :=
  match (officialCatalogProvider model).bind fun provider =>
      catalog.entries.find? (provider, model) with
  | some entry => modelPricingFromEntry entry.2
  | none => agreedPricing model none catalog.entries.rows

def exactProviderModelPricing (provider model : String) : Option ProviderModelPricing :=
  (catalog.entries.find? (provider, model)).bind fun entry => modelPricingFromEntry entry.2

/-- The lookup of a model refresh. -/
def exactPricing (catalogProvider : Option String)
    (upstreamModel : String) : Option ProviderModelPricing :=
  match catalogProvider with
  | some provider => catalog.exactProviderModelPricing provider upstreamModel
  | none => catalog.exactModelPricing upstreamModel

/-- What an attempt sees of the catalog. -/
def snapshot : CatalogSnapshot := ⟨catalog.exactModelPricing⟩

end

end ParsedCatalog

/-! ## The order of tiers -/

/-- Thresholds that increase from tier to tier. -/
def Increasing (tiers : List ProviderModelPricingTier) : Prop :=
  tiers.Pairwise fun tier tier' => tier.thresholdTokens.val < tier'.thresholdTokens.val

theorem sortByThreshold_perm (tiers : List ProviderModelPricingTier) :
    (sortByThreshold tiers).Perm tiers :=
  perm_insertionSort _ tiers

theorem sortByThreshold_sorted (tiers : List ProviderModelPricingTier) :
    (sortByThreshold tiers).Pairwise fun tier tier' =>
      tier.thresholdTokens.val ≤ tier'.thresholdTokens.val := by
  have : Std.Total fun tier tier' : ProviderModelPricingTier =>
      tier.thresholdTokens.val ≤ tier'.thresholdTokens.val := ⟨fun _ _ => le_total _ _⟩
  have : IsTrans ProviderModelPricingTier fun tier tier' =>
      tier.thresholdTokens.val ≤ tier'.thresholdTokens.val := ⟨fun _ _ _ => le_trans⟩
  exact pairwise_insertionSort _ tiers

variable {tiers : List ProviderModelPricingTier}

/-- In a sorted list it is enough to compare neighbours. -/
theorem hasRepeatedThreshold_eq_false (h : tiers.Pairwise fun tier tier' =>
      tier.thresholdTokens.val ≤ tier'.thresholdTokens.val) :
    hasRepeatedThreshold tiers = false ↔ Increasing tiers := by
  induction tiers with
  | nil => simp [hasRepeatedThreshold, Increasing]
  | cons first rest ih =>
    rcases rest with _ | ⟨second, rest⟩
    · simp [hasRepeatedThreshold, Increasing]
    · obtain ⟨hfirst, hrest⟩ := pairwise_cons.mp h
      obtain ⟨hsecond, -⟩ := pairwise_cons.mp hrest
      rw [forall_mem_cons] at hfirst
      rw [hasRepeatedThreshold, Bool.or_eq_false_iff, ih hrest, decide_eq_false_iff_not,
        Increasing, Increasing, pairwise_cons (a := first), forall_mem_cons]
      refine and_congr_left fun _ => ⟨fun hne => ?_, ?_⟩
      · have hlt : first.thresholdTokens.val < second.thresholdTokens.val :=
          lt_of_le_of_ne hfirst.1 fun heq => hne (IntRange.ext heq)
        exact ⟨hlt, fun tier htier => hlt.trans_le (hsecond tier htier)⟩
      · rintro ⟨hlt, -⟩ heq
        exact hlt.ne (congrArg IntRange.val heq)

theorem explicitTiers_eq_some {rawTiers : List RawTierCost} : explicitTiers rawTiers = some tiers ↔
      Increasing tiers ∧ ∃ unsorted, rawTiers.mapM explicitTier = some unsorted ∧
        tiers = sortByThreshold unsorted := by
  simp only [explicitTiers, Option.bind_eq_some_iff]
  constructor
  · rintro ⟨unsorted, hread, h⟩
    split_ifs at h with hrepeated
    cases h
    exact ⟨(hasRepeatedThreshold_eq_false (sortByThreshold_sorted unsorted)).mp
      (Bool.eq_false_iff.mpr hrepeated), unsorted, hread, rfl⟩
  · rintro ⟨hincreasing, unsorted, hread, rfl⟩
    refine ⟨unsorted, hread, if_neg ?_⟩
    exact Bool.eq_false_iff.mp
      ((hasRepeatedThreshold_eq_false (sortByThreshold_sorted unsorted)).mpr hincreasing)

/-! ## Lookups -/

namespace ParsedCatalog

variable {pricing : ProviderModelPricing}

variable {model : String}

theorem agreedPricing_eq_some {candidate : Option ProviderModelPricing}
    {entries : List CatalogEntry} :
    agreedPricing model candidate entries = some pricing ↔
      (∀ current ∈ candidate, current = pricing) ∧
        (∀ entry ∈ entries, entry.1.2 = model → modelPricingFromEntry entry.2 = some pricing) ∧
          (candidate.isSome = true ∨ ∃ entry ∈ entries, entry.1.2 = model) := by
  induction entries generalizing candidate with
  | nil => cases candidate <;> simp [agreedPricing]
  | cons entry _ ih =>
    rw [agreedPricing, forall_mem_cons, exists_mem_cons_iff]
    by_cases hmodel : entry.1.2 = model
    · rw [if_neg (not_not_intro hmodel)]
      rcases hentry : modelPricingFromEntry entry.2 with _ | found
      · simp [hmodel]
      · rcases candidate with _ | current
        · simp only [ih, hmodel]
          simp
        · by_cases hcurrent : current = found
          · simp only [hcurrent, ne_eq, not_true_eq_false, if_false, ih, hmodel]
            simp
          · refine ⟨fun h => ?_, fun ⟨hsame, ⟨hfound, _⟩, _⟩ => ?_⟩
            · simp [hcurrent] at h
            · cases hfound hmodel
              exact absurd (hsame current rfl) hcurrent
    · rw [if_pos hmodel, ih]
      simp [hmodel]

/-- The loop does not depend on the order of the entries. -/
theorem agreedPricing_perm {entries entries' : List CatalogEntry} (h : entries.Perm entries')
    (model : String) : agreedPricing model none entries = agreedPricing model none entries' := by
  ext pricing
  rw [agreedPricing_eq_some, agreedPricing_eq_some]
  simp [h.mem_iff]

/-- The same entries, in whatever order the map yields them. -/
def SameEntries (catalog catalog' : ParsedCatalog) : Prop :=
  catalog.entries.rows.Perm catalog'.entries.rows

variable {catalog catalog' : ParsedCatalog}

theorem SameEntries.find? (h : SameEntries catalog catalog')
    (key : String × String) : catalog.entries.find? key = catalog'.entries.find? key := by
  ext entry
  rw [Table.find?_eq_some, Table.find?_eq_some, h.mem_iff]

/-- An exact lookup does not depend on the order of the catalog map. -/
theorem SameEntries.exactModelPricing (h : SameEntries catalog catalog') (model : String) :
    catalog.exactModelPricing model = catalog'.exactModelPricing model := by
  unfold ParsedCatalog.exactModelPricing
  simp [h.find?, agreedPricing_perm h]

/-- A pricing that a lookup returns is that of an entry of the model, and of the named provider. -/
theorem exists_entry_of_exactPricing {catalog : ParsedCatalog} {catalogProvider : Option String}
    (h : catalog.exactPricing catalogProvider model = some pricing) :
    ∃ provider entry, ((provider, model), entry) ∈ catalog.entries.rows ∧
      (∀ named ∈ catalogProvider, named = provider) ∧
        modelPricingFromEntry entry = some pricing := by
  rcases catalogProvider with _ | named
  · simp only [exactPricing, ParsedCatalog.exactModelPricing] at h
    split at h
    · next entry hofficial =>
        obtain ⟨provider, -, hfind⟩ := Option.bind_eq_some_iff.mp hofficial
        obtain ⟨hmem, hkey⟩ := Table.find?_eq_some.mp hfind
        obtain ⟨_, entry⟩ := entry
        cases hkey
        exact ⟨provider, entry, hmem, by simp, h⟩
    · obtain ⟨-, hall, hone⟩ := agreedPricing_eq_some.mp h
      obtain ⟨entry, hmem, rfl⟩ := hone.resolve_left (by simp)
      exact ⟨entry.1.1, entry.2, hmem, by simp, hall entry hmem rfl⟩
  · obtain ⟨entry, hfind, hentry⟩ := Option.bind_eq_some_iff.mp h
    obtain ⟨hmem, hkey⟩ := Table.find?_eq_some.mp hfind
    obtain ⟨_, entry⟩ := entry
    cases hkey
    exact ⟨named, entry, hmem, by simp, hentry⟩

end ParsedCatalog

end ProviderCore.Usage
