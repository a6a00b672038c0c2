import ProviderCore.Lib.Json
import ProviderCore.Usage.Price

/-!
# Stored provider models

The models of an account as the router reads them.  The metadata of a model is a JSON text that the
provider's discovery wrote; it is held as the tree behind the text, `none` if the text is not JSON.
Reading a text the code expects to be well formed panics otherwise, which is `none` here too.
-/

namespace ProviderCore.Routing

open Usage

inductive ProviderModelInputModality
  | text
  | image
  | pdf
  | audio
  | video
deriving DecidableEq

structure ProviderModel where
  id : String
  object : String
  created : Option U64
  ownedBy : String
  inputModalities : Option (List ProviderModelInputModality)
  supportsImageDetailOriginal : Bool
deriving DecidableEq

def ProviderModel.withInputModalities (model : ProviderModel)
    (inputModalities : Option (List ProviderModelInputModality)) : ProviderModel :=
  { model with
    supportsImageDetailOriginal := inputModalities.any fun modalities => modalities.contains .image
    inputModalities := inputModalities }

structure StoredProviderModel where
  upstreamModel : String
  modelAlias : Option String
  enabled : Bool
  available : Bool
  routable : Bool
  inputModalities : Option (List ProviderModelInputModality)
  metadataJson : Option Json
  pricing : Option ProviderModelPricingRecord

/-- A model that is switched on, without metadata. -/
def sampleModel (upstreamModel : String) : StoredProviderModel where
  upstreamModel := upstreamModel
  modelAlias := none
  enabled := true
  available := true
  routable := true
  inputModalities := none
  metadataJson := some (.obj [])
  pricing := none

namespace StoredProviderModel

def effectiveModel (model : StoredProviderModel) : String :=
  model.modelAlias.getD model.upstreamModel

/-- Whether the model is listed, `none` if its metadata is not JSON. -/
def isPubliclyListed (model : StoredProviderModel) : Option Bool :=
  model.metadataJson.map fun metadata =>
    ((metadata.member? "visibility").bind Json.toStr).all (· == "list")

end StoredProviderModel

/-! ## Reading the metadata -/

/-- A variant without data is written as its name, and is also read as a record of that name. -/
def variantName : Json → Option String
  | .str name => some name
  | .obj [(name, .null)] => some name
  | _ => none

def modalityFromJson (tree : Json) : Option ProviderModelInputModality :=
  (variantName tree).bind fun
    | "text" => some .text
    | "image" => some .image
    | "pdf" => some .pdf
    | "audio" => some .audio
    | "video" => some .video
    | _ => none

def providerModelFromJson (tree : Json) : Option ProviderModel := do
  let id ← tree.field "id" Json.toStr
  let object ← tree.field "object" Json.toStr
  let created ← tree.optional "created" Json.toInt
  let ownedBy ← tree.field "owned_by" Json.toStr
  let inputModalities ← tree.optional "input_modalities" (Json.toList modalityFromJson)
  let supportsImageDetailOriginal ←
    tree.defaulted "supports_image_detail_original" false Json.toBool
  return ⟨id, object, created, ownedBy, inputModalities, supportsImageDetailOriginal⟩

def modelUsesResponsesLite (model : StoredProviderModel) : Bool :=
  ((model.metadataJson.bind (Json.member? "use_responses_lite")).bind Json.toBool).getD false

inductive OfficialClientContractStatus
  | verified
  | unsupported
  | blocked
  | needsReview
deriving DecidableEq

def OfficialClientContractStatus.allowsProductionRouting (status : OfficialClientContractStatus) :
    Bool :=
  status = .verified

def contractStatusFromJson (tree : Json) : Option OfficialClientContractStatus :=
  (variantName tree).bind fun
    | "verified" => some .verified
    | "unsupported" => some .unsupported
    | "blocked" => some .blocked
    | "needs_review" => some .needsReview
    | _ => none

/-- The status of a model's contract: absent without a contract, unknown without a readable
status. -/
def officialClientContractStatus (model : StoredProviderModel) :
    Option (Option OfficialClientContractStatus) :=
  (model.metadataJson.bind (Json.member? "official_client_contract")).map fun contract =>
    (contract.member? "status").bind contractStatusFromJson

def modelContractIsRoutable (model : StoredProviderModel) : Bool :=
  (officialClientContractStatus model).all fun status =>
    status.any OfficialClientContractStatus.allowsProductionRouting

/-- What two offers of one model have in common; nothing is known if one of them is unknown. -/
def conservativeInputModalities (left right : Option (List ProviderModelInputModality)) :
    Option (List ProviderModelInputModality) :=
  left.bind fun left => right.bind fun right =>
    let modalities := left.filter fun modality => right.contains modality
    if modalities.isEmpty then none else some modalities

end ProviderCore.Routing
