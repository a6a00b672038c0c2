import ProviderCore.Lib.Json
import ProviderCore.Storage.Codec

/-!
# The JSON columns of an attempt

What the derived serializers write into `inclusion_json`, `token_kinds_json` and `price_json`, and
what the deserializers make of it.  The first two are read back as written.  A price record is
deserialized through a generic value tree, to look at its format version first, and so it is read
back exactly if its unit prices fit the integers of such a tree (`priceRecordFromJson_toJson`).
-/

namespace ProviderCore.Storage

open Usage List
open Json (toBool toInt toWide toStr Reads toInt_int Narrow)

/-! ## Inclusion rules -/

def totalSourceToJson : TotalSource → Json
  | .reported => .obj [("kind", .str "reported")]
  | .derivedSum ruleVersion =>
    .obj [("kind", .str "derived_sum"), ("rule_version", .int ruleVersion.val)]
  | .unavailable => .obj [("kind", .str "unavailable")]

def totalSourceFromJson (tree : Json) : Option TotalSource := do
  let kind ← tree.field "kind" toStr
  if kind = "reported" then some .reported
  else if kind = "derived_sum" then
    (tree.field "rule_version" toInt).map .derivedSum
  else if kind = "unavailable" then some .unavailable
  else none

theorem totalSourceFromJson_toJson (source : TotalSource) :
    totalSourceFromJson (totalSourceToJson source) = some source := by
  cases source with
  | reported => rfl
  | derivedSum =>
    simp [totalSourceFromJson, totalSourceToJson, Json.field, lookup_cons]
  | unavailable => rfl

def inclusionToJson (rules : TokenInclusionRules) : Json :=
  .obj
    [ ("input_includes_cache", .bool rules.inputIncludesCache),
      ("input_categories_mutually_exclusive", .bool rules.inputCategoriesMutuallyExclusive),
      ("reasoning_included_in_output", .bool rules.reasoningIncludedInOutput),
      ("reasoning_applicable", .bool rules.reasoningApplicable),
      ("audio_applicable", .bool rules.audioApplicable),
      ("cache_write_applicable", .bool rules.cacheWriteApplicable),
      ("missing_cache_read_means_zero", .bool rules.missingCacheReadMeansZero),
      ("total_source", totalSourceToJson rules.totalSource) ]

def inclusionFromJson (tree : Json) : Option TokenInclusionRules := do
  let inputIncludesCache ← tree.field "input_includes_cache" toBool
  let mutuallyExclusive ← tree.field "input_categories_mutually_exclusive" toBool
  let reasoningIncluded ← tree.field "reasoning_included_in_output" toBool
  let reasoningApplicable ← tree.field "reasoning_applicable" toBool
  let audioApplicable ← tree.field "audio_applicable" toBool
  let cacheWriteApplicable ← tree.field "cache_write_applicable" toBool
  let missingMeansZero ← tree.defaulted "missing_cache_read_means_zero" false toBool
  let totalSource ← tree.field "total_source" totalSourceFromJson
  return ⟨inputIncludesCache, mutuallyExclusive, reasoningIncluded, reasoningApplicable,
    audioApplicable, cacheWriteApplicable, missingMeansZero, totalSource⟩

theorem inclusionFromJson_toJson (rules : TokenInclusionRules) :
    inclusionFromJson (inclusionToJson rules) = some rules := by
  simp [inclusionFromJson, inclusionToJson, Json.field, Json.defaulted, lookup_cons,
    totalSourceFromJson_toJson]

/-! ## Token kinds -/

def unknownReasonToJson : TokenUnknownReason → Json
  | .indeterminate => .str "indeterminate"
  | .invalidReported => .str "invalid_reported"
  | .noUsageTerminal => .str "no_usage_terminal"

def unknownReasonFromJson (tree : Json) : Option TokenUnknownReason := do
  let reason ← tree.toStr
  if reason = "indeterminate" then some .indeterminate
  else if reason = "invalid_reported" then some .invalidReported
  else if reason = "no_usage_terminal" then some .noUsageTerminal
  else none

theorem unknownReasonFromJson_toJson (reason : TokenUnknownReason) :
    unknownReasonFromJson (unknownReasonToJson reason) = some reason := by
  cases reason <;> rfl

def storedKindToJson : StoredKind → Json
  | .derivedFromReported ruleVersion =>
    .obj [("kind", .str "derived_from_reported"), ("rule_version", .int ruleVersion.val)]
  | .notReported => .obj [("kind", .str "not_reported")]
  | .notApplicable => .obj [("kind", .str "not_applicable")]
  | .unknown reason => .obj [("kind", .str "unknown"), ("reason", unknownReasonToJson reason)]

def storedKindFromJson (tree : Json) : Option StoredKind := do
  let kind ← tree.field "kind" toStr
  if kind = "derived_from_reported" then
    (tree.field "rule_version" toInt).map .derivedFromReported
  else if kind = "not_reported" then some .notReported
  else if kind = "not_applicable" then some .notApplicable
  else if kind = "unknown" then (tree.field "reason" unknownReasonFromJson).map .unknown
  else none

theorem storedKindFromJson_toJson (kind : StoredKind) :
    storedKindFromJson (storedKindToJson kind) = some kind := by
  cases kind with
  | derivedFromReported =>
    simp [storedKindFromJson, storedKindToJson, Json.field, lookup_cons]
  | notReported | notApplicable => rfl
  | unknown =>
    simp [storedKindFromJson, storedKindToJson, Json.field, lookup_cons,
      unknownReasonFromJson_toJson]

/-- The members of the kinds column: a category without a kind is not written. -/
def kindMembers (kinds : StoredKinds) : List (String × Option Json) :=
  [ ("uncached_input", kinds.uncachedInput.map storedKindToJson),
    ("cache_read_input", kinds.cacheReadInput.map storedKindToJson),
    ("cache_write_input", kinds.cacheWriteInput.map storedKindToJson),
    ("effective_input", kinds.effectiveInput.map storedKindToJson),
    ("output", kinds.output.map storedKindToJson),
    ("reasoning", kinds.reasoning.map storedKindToJson),
    ("input_audio", kinds.inputAudio.map storedKindToJson),
    ("output_audio", kinds.outputAudio.map storedKindToJson),
    ("total", kinds.total.map storedKindToJson),
    ("pricing_context", kinds.pricingContext.map storedKindToJson) ]

def kindsToJson (kinds : StoredKinds) : Json := .present (kindMembers kinds)

def kindsFromJson (tree : Json) : Option StoredKinds := do
  let uncachedInput ← tree.optional "uncached_input" storedKindFromJson
  let cacheReadInput ← tree.optional "cache_read_input" storedKindFromJson
  let cacheWriteInput ← tree.optional "cache_write_input" storedKindFromJson
  let effectiveInput ← tree.optional "effective_input" storedKindFromJson
  let output ← tree.optional "output" storedKindFromJson
  let reasoning ← tree.optional "reasoning" storedKindFromJson
  let inputAudio ← tree.optional "input_audio" storedKindFromJson
  let outputAudio ← tree.optional "output_audio" storedKindFromJson
  let total ← tree.optional "total" storedKindFromJson
  let pricingContext ← tree.optional "pricing_context" storedKindFromJson
  return ⟨uncachedInput, cacheReadInput, cacheWriteInput, effectiveInput, output, reasoning,
    inputAudio, outputAudio, total, pricingContext⟩

/-- A kind is read back from the member of its category. -/
theorem optional_kind {kinds : StoredKinds} {name : String} {kind : Option StoredKind}
    (h : (kindMembers kinds).lookup name = some (kind.map storedKindToJson)) :
    Json.optional name storedKindFromJson (kindsToJson kinds) = some kind := by
  have hnames : ((kindMembers kinds).map Prod.fst).Nodup := by
    simp [kindMembers]
  have hmember : Json.member? name (kindsToJson kinds) = kind.map storedKindToJson := by
    rw [kindsToJson, Json.member?_present hnames, h, Option.join_some]
  unfold Json.optional
  rw [hmember]
  cases kind with
  | none => rfl
  | some kind =>
    have hread := storedKindFromJson_toJson kind
    cases kind <;> simp_all [storedKindToJson]

theorem kindsFromJson_toJson (kinds : StoredKinds) :
    kindsFromJson (kindsToJson kinds) = some kinds := by
  have hread : ∀ {name : String} {kind : Option StoredKind},
      (kindMembers kinds).lookup name = some (kind.map storedKindToJson) →
      Json.optional name storedKindFromJson (kindsToJson kinds) = some kind := optional_kind
  unfold kindsFromJson
  rw [@hread _ kinds.uncachedInput rfl, @hread _ kinds.cacheReadInput rfl,
    @hread _ kinds.cacheWriteInput rfl, @hread _ kinds.effectiveInput rfl,
    @hread _ kinds.output rfl, @hread _ kinds.reasoning rfl, @hread _ kinds.inputAudio rfl,
    @hread _ kinds.outputAudio rfl, @hread _ kinds.total rfl, @hread _ kinds.pricingContext rfl]
  rfl

/-! ## Price records -/

def unitPriceToJson (price : UnitPrice) : Json := .int price.val

def pricesToJson (prices : ComponentPrices) : Json :=
  .obj
    [ ("uncached_input_per_million", .ofOption unitPriceToJson prices.uncachedInputPerMillion),
      ("cache_read_per_million", .ofOption unitPriceToJson prices.cacheReadPerMillion),
      ("cache_write_per_million", .ofOption unitPriceToJson prices.cacheWritePerMillion),
      ("output_per_million", .ofOption unitPriceToJson prices.outputPerMillion),
      ("reasoning_per_million", .ofOption unitPriceToJson prices.reasoningPerMillion),
      ("input_audio_per_million", .ofOption unitPriceToJson prices.inputAudioPerMillion),
      ("output_audio_per_million", .ofOption unitPriceToJson prices.outputAudioPerMillion) ]

def pricesFromJson (tree : Json) : Option ComponentPrices := do
  let uncachedInput ← tree.optional "uncached_input_per_million" toWide
  let cacheRead ← tree.optional "cache_read_per_million" toWide
  let cacheWrite ← tree.optional "cache_write_per_million" toWide
  let output ← tree.optional "output_per_million" toWide
  let reasoning ← tree.optional "reasoning_per_million" toWide
  let inputAudio ← tree.optional "input_audio_per_million" toWide
  let outputAudio ← tree.optional "output_audio_per_million" toWide
  return ⟨uncachedInput, cacheRead, cacheWrite, output, reasoning, inputAudio, outputAudio⟩

/-- A unit price that a value tree holds as an integer. -/
def PriceNarrow (price : Option UnitPrice) : Prop := ∀ unit ∈ price, Narrow unit.val

instance (price : Option UnitPrice) : Decidable (PriceNarrow price) :=
  inferInstanceAs (Decidable (∀ unit ∈ price, Narrow unit.val))

@[mk_iff] structure PricesNarrow (prices : ComponentPrices) : Prop where
  uncachedInput : PriceNarrow prices.uncachedInputPerMillion
  cacheRead : PriceNarrow prices.cacheReadPerMillion
  cacheWrite : PriceNarrow prices.cacheWritePerMillion
  output : PriceNarrow prices.outputPerMillion
  reasoning : PriceNarrow prices.reasoningPerMillion
  inputAudio : PriceNarrow prices.inputAudioPerMillion
  outputAudio : PriceNarrow prices.outputAudioPerMillion

instance (prices : ComponentPrices) : Decidable (PricesNarrow prices) :=
  decidable_of_iff' _ (pricesNarrow_iff prices)

theorem pricesFromJson_toJson (prices : ComponentPrices) :
    Reads (pricesFromJson (pricesToJson prices)) (PricesNarrow prices) prices := by
  have hread : ∀ (name : String) {price : Option UnitPrice},
      (pricesToJson prices).member? name = some (.ofOption unitPriceToJson price) →
      Reads ((pricesToJson prices).optional name toWide) (PriceNarrow price) price :=
    fun _ _ h => .optional (fun _ _ => Json.toWide_int) h fun _ => Json.noConfusion
  refine ((hread "uncached_input_per_million" rfl).bind <|
    (hread "cache_read_per_million" rfl).bind <| (hread "cache_write_per_million" rfl).bind <|
    (hread "output_per_million" rfl).bind <| (hread "reasoning_per_million" rfl).bind <|
    (hread "input_audio_per_million" rfl).bind <|
    (hread "output_audio_per_million" rfl).map _).congr ?_
  rw [pricesNarrow_iff]

def tierToJson (tier : ContextPriceTier) : Json :=
  .obj
    [ ("threshold_tokens", .int tier.thresholdTokens.val), ("prices", pricesToJson tier.prices) ]

def tierFromJson (tree : Json) : Option ContextPriceTier := do
  let thresholdTokens ← tree.field "threshold_tokens" toInt
  let prices ← tree.field "prices" pricesFromJson
  return ⟨thresholdTokens, prices⟩

theorem tierFromJson_toJson (tier : ContextPriceTier) :
    Reads (tierFromJson (tierToJson tier)) (PricesNarrow tier.prices) tier :=
  .after (toInt_int tier.thresholdTokens) ((pricesFromJson_toJson tier.prices).map _)

theorem tiersFromJson_toJson (tiers : List ContextPriceTier) :
    Reads ((tiers.map tierToJson).mapM tierFromJson)
      (∀ tier ∈ tiers, PricesNarrow tier.prices) tiers := by
  induction tiers with
  | nil => exact (Reads.of_eq rfl).congr (by simp)
  | cons tier _ ih =>
    rw [map_cons, mapM_cons, forall_mem_cons]
    exact (tierFromJson_toJson tier).bind (ih.map _)

def pricingSourceToJson : ProviderModelPricingSource → Json
  | .catalog => .str "catalog"
  | .manual => .str "manual"

def pricingSourceFromJson (tree : Json) : Option ProviderModelPricingSource := do
  let source ← tree.toStr
  if source = "catalog" then some .catalog
  else if source = "manual" then some .manual
  else none

theorem pricingSourceFromJson_toJson (source : ProviderModelPricingSource) :
    pricingSourceFromJson (pricingSourceToJson source) = some source := by
  cases source <;> rfl

def catalogV1ToJson (record : CatalogInlinePriceRecordV1) : Json :=
  .obj
    [ ("format_version", .int record.formatVersion.val),
      ("parser_version", .int record.parserVersion.val),
      ("catalog_revision", .str record.catalogRevision),
      ("catalog_provider_id", .str record.catalogProviderId),
      ("catalog_model_id", .str record.catalogModelId),
      ("mapping_revision", .int record.mappingRevision.val),
      ("prices", pricesToJson record.prices),
      ("context_tier", .ofOption tierToJson record.contextTier),
      ("selected_tier", .ofOption .str record.selectedTier),
      ("unmodeled_billable_component", .bool record.unmodeledBillableComponent),
      ("unmodeled_pricing_rule", .bool record.unmodeledPricingRule) ]

def catalogV1FromJson (tree : Json) : Option CatalogInlinePriceRecordV1 := do
  tree.denyUnknown ["format_version", "parser_version", "catalog_revision", "catalog_provider_id",
    "catalog_model_id", "mapping_revision", "prices", "context_tier", "selected_tier",
    "unmodeled_billable_component", "unmodeled_pricing_rule"]
  let formatVersion ← tree.field "format_version" toInt
  let parserVersion ← tree.field "parser_version" toInt
  let catalogRevision ← tree.field "catalog_revision" toStr
  let catalogProviderId ← tree.field "catalog_provider_id" toStr
  let catalogModelId ← tree.field "catalog_model_id" toStr
  let mappingRevision ← tree.field "mapping_revision" toInt
  let prices ← tree.field "prices" pricesFromJson
  let contextTier ← tree.optional "context_tier" tierFromJson
  let selectedTier ← tree.optional "selected_tier" toStr
  let unmodeledBillable ← tree.field "unmodeled_billable_component" toBool
  let unmodeledRule ← tree.defaulted "unmodeled_pricing_rule" false toBool
  return ⟨formatVersion, parserVersion, catalogRevision, catalogProviderId, catalogModelId,
    mappingRevision, prices, contextTier, selectedTier, unmodeledBillable, unmodeledRule⟩

def modelV2ToJson (record : ModelInlinePriceRecordV2) : Json :=
  .obj
    [ ("format_version", .int record.formatVersion.val),
      ("source", pricingSourceToJson record.source),
      ("prices", pricesToJson record.prices),
      ("tiers", .arr (record.tiers.map tierToJson)) ]

def modelV2FromJson (tree : Json) : Option ModelInlinePriceRecordV2 := do
  tree.denyUnknown ["format_version", "source", "prices", "tiers"]
  let formatVersion ← tree.field "format_version" toInt
  let source ← tree.field "source" pricingSourceFromJson
  let prices ← tree.field "prices" pricesFromJson
  let tiers ← tree.field "tiers" (Json.toList tierFromJson)
  return ⟨formatVersion, source, prices, tiers⟩

def priceRecordToJson : InlinePriceRecord → Json
  | .catalogV1 record => catalogV1ToJson record
  | .modelV2 record => modelV2ToJson record

/-- The version decides which record is read. -/
def priceRecordFromJson (tree : Json) : Option InlinePriceRecord := do
  let version : U64 ← tree.field "format_version" toInt
  if version.val = 1 then (catalogV1FromJson tree).map .catalogV1
  else if version.val = 2 then (modelV2FromJson tree).map .modelV2
  else none

/-- Whether a value tree holds the record: it has its own format version, and unit prices that
are integers there. -/
def PriceRecordNarrow : InlinePriceRecord → Prop
  | .catalogV1 record =>
    record.formatVersion.val = 1 ∧ PricesNarrow record.prices ∧
      ∀ tier ∈ record.contextTier, PricesNarrow tier.prices
  | .modelV2 record =>
    record.formatVersion.val = 2 ∧ PricesNarrow record.prices ∧
      ∀ tier ∈ record.tiers, PricesNarrow tier.prices

instance (record : InlinePriceRecord) : Decidable (PriceRecordNarrow record) :=
  match record with
  | .catalogV1 _ => inferInstanceAs (Decidable (_ ∧ _ ∧ _))
  | .modelV2 _ => inferInstanceAs (Decidable (_ ∧ _ ∧ _))

theorem catalogV1FromJson_toJson (record : CatalogInlinePriceRecordV1) :
    Reads (catalogV1FromJson (catalogV1ToJson record))
      (PricesNarrow record.prices ∧ ∀ tier ∈ record.contextTier, PricesNarrow tier.prices)
      record := by
  have hselected : (catalogV1ToJson record).optional "selected_tier" toStr =
      some record.selectedTier := by
    rcases record with ⟨_, _, _, _, _, _, _, _, _ | selected, _, _⟩ <;> rfl
  have htier : Reads ((catalogV1ToJson record).optional "context_tier" tierFromJson)
      (∀ tier ∈ record.contextTier, PricesNarrow tier.prices) record.contextTier :=
    .optional tierFromJson_toJson rfl fun _ => Json.noConfusion
  refine .after (toInt_int record.formatVersion) <|
    .after (toInt_int record.parserVersion) <| .after rfl <| .after rfl <| .after rfl <|
    .after (toInt_int record.mappingRevision) <| (pricesFromJson_toJson _).bind ?_
  refine .congr (htier.bind ?_) (iff_of_eq (and_true _))
  exact .after hselected (.of_eq rfl)

theorem modelV2FromJson_toJson (record : ModelInlinePriceRecordV2) :
    Reads (modelV2FromJson (modelV2ToJson record))
      (PricesNarrow record.prices ∧ ∀ tier ∈ record.tiers, PricesNarrow tier.prices) record := by
  exact .after (toInt_int record.formatVersion) <|
    .after (pricingSourceFromJson_toJson record.source) <|
    (pricesFromJson_toJson _).bind ((tiersFromJson_toJson _).map _)

/-- A written record is read back as it was, if a value tree holds it; otherwise reading fails. -/
theorem priceRecordFromJson_toJson {record read : InlinePriceRecord} :
    priceRecordFromJson (priceRecordToJson record) = some read ↔
      PriceRecordNarrow record ∧ read = record := by
  have hwiden : ∀ {tree : Json} {version : U16},
      tree.member? "format_version" = some (.int version.val) →
      tree.field "format_version" toInt =
        some (⟨version.val, version.le, version.lt.trans (by decide)⟩ : U64) := by
    intro tree version h
    rw [Json.field_of_member h]
    exact IntRange.tryFrom_eq_some.mpr rfl
  cases record with
  | catalogV1 record =>
    have hversion := @hwiden (catalogV1ToJson record) record.formatVersion rfl
    simp only [priceRecordFromJson, priceRecordToJson, hversion, bind, Option.bind_some,
      PriceRecordNarrow]
    split_ifs with hone htwo
    · rw [Option.map_eq_bind]
      exact ((catalogV1FromJson_toJson record).map _).congr (by simp [hone]) read
    · -- A record of the first form is not one of the second.
      have hnone : modelV2FromJson (catalogV1ToJson record) = none := rfl
      simp [hnone, hone]
    · simp [hone]
  | modelV2 record =>
    have hversion := @hwiden (modelV2ToJson record) record.formatVersion rfl
    simp only [priceRecordFromJson, priceRecordToJson, hversion, bind, Option.bind_some,
      PriceRecordNarrow]
    split_ifs with hone htwo
    · have hnone : catalogV1FromJson (modelV2ToJson record) = none := rfl
      simp [hnone, hone]
    · rw [Option.map_eq_bind]
      exact ((modelV2FromJson_toJson record).map _).congr (by simp [htwo]) read
    · simp [htwo]

end ProviderCore.Storage
