import Fracks.Indexer
import Fracks.ModuleParams

/-!
# The metadata of indexed assets

For every deployment the indexer reads the claim topics, the trusted issuers and the
compliance modules and merges them into the metadata that the asset has in the database.
What is empty on chain does not replace what is stored.
-/

namespace Fracks.Indexer

open Bytes Json

/-! ## The chain -/

/-- What the endpoint answers while one deployment is read. -/
structure Chain where
  getAccountInfo : List UInt8 → Option Account
  getProgramAccounts : List UInt8 → List Account

/-- The programs and the addresses derived for them. -/
structure Config where
  moduleIds : ModuleProgramIds
  tirProgram : List UInt8
  ctrState : List UInt8 → List UInt8
  tirState : List UInt8 → List UInt8

/-! ## Accounts -/

def issuerEntrySize : ℕ := 8 + 32 + 32 + 4 + 8 * 20 + 1 + 4 + 64 + 1

/-- The first 32 bytes from `offset` on. -/
def readPubkey (data : List UInt8) (offset : ℕ) : List UInt8 :=
  Decoders.publicKey (window data offset 32)

def parseComplianceState (account : Account) : List (List UInt8) :=
  readVector 32 readPubkey account.data (8 + 32 + 32)

def parseClaimTopicsState (account : Account) : List String :=
  (readVector 8 readBigUInt64LE account.data (8 + 32 + 32)).map toString

structure IssuerEntry where
  issuerFid : List UInt8
  topics : List String
  active : Bool
  label : String

def parseIssuerEntry (account : Account) : Option IssuerEntry :=
  let data := account.data
  if data.length < issuerEntrySize then none
  else
    let issuerFid := readPubkey data 8
    let topicCount := readUInt32LE data 72
    let topics := readFitting 8 readBigUInt64LE data topicCount 76
    if topics.length < topicCount then none
    else
      let offset := 76 + 8 * topicCount
      if data.length < offset + 1 + 4 then none
      else
        let active := readUInt8 data offset = 1
        let labelLength := readUInt32LE data (offset + 1)
        if data.length < offset + 5 + labelLength then none
        else some {
          issuerFid
          topics := topics.map toString
          active
          label := Decoders.utf8ToString (window data (offset + 5) labelLength) }

def readAnchorString (data : List UInt8) (offset : ℕ) : Option (String × ℕ) :=
  if data.length < offset + 4 then none
  else
    let finish := offset + 4 + readUInt32LE data offset
    if data.length < finish then none
    else some (Decoders.utf8ToString (window data (offset + 4) (readUInt32LE data offset)), finish)

structure ParsedTokenState where
  paused : Bool
  decimals : ℕ
  name : String
  symbol : String
  isin : String

def parseTokenState (account : Account) : Option ParsedTokenState :=
  let data := account.data
  let offset := 8 + 32 + 32 + 32
  if data.length < offset + 2 then none
  else
    let name := readAnchorString data (offset + 2)
    let symbol := name.bind fun name ↦ readAnchorString data name.2
    let isin := symbol.bind fun symbol ↦ readAnchorString data symbol.2
    let text := fun read : Option (String × ℕ) ↦ (read.map Prod.fst).getD ""
    some {
      paused := readUInt8 data offset = 1
      decimals := readUInt8 data (offset + 1)
      name := text name
      symbol := text symbol
      isin := text isin }

/-! ## What is read off the chain -/

structure TrustedIssuer where
  label : String
  issuerFid : String
  walletAddress : String
  topics : List String
  active : Bool

structure ComplianceMetadata where
  complianceModules : List String
  complianceModuleParams : Record ModuleParams

structure Metadata extends ComplianceMetadata where
  decimals : Option ℕ
  claimTopics : List String
  trustedIssuers : List TrustedIssuer

section Reading

variable (config : Config) (chain : Chain)

def readClaimTopics (ctrState : List UInt8) : List String :=
  ((chain.getAccountInfo ctrState).map parseClaimTopicsState).getD []

def readFidOwner (fid : List UInt8) : String :=
  match chain.getAccountInfo fid with
  | none => ""
  | some account =>
      if account.data.length < 40 then "" else toBase58 (window account.data 8 32)

def readTrustedIssuers (tirState : List UInt8) : List TrustedIssuer :=
  let accounts := (chain.getProgramAccounts config.tirProgram).filter fun account ↦
    account.data.length = issuerEntrySize ∧ window account.data (8 + 32) 32 = tirState
  (accounts.filterMap parseIssuerEntry).map fun issuer ↦ {
    label := issuer.label
    issuerFid := toBase58 issuer.issuerFid
    walletAddress := readFidOwner chain issuer.issuerFid
    topics := issuer.topics
    active := issuer.active }

/-- The program of a module account and its parameters. -/
def readModule (decimals : ℕ) (moduleState : List UInt8) : Option (String × ModuleParams) := do
  let moduleAccount ← chain.getAccountInfo moduleState
  let params ← parseComplianceModuleParams config.moduleIds moduleAccount decimals
  some (toBase58 moduleAccount.owner, params)

def addModule (decimals : ℕ) (metadata : ComplianceMetadata) (moduleState : List UInt8) :
    ComplianceMetadata :=
  match readModule config chain decimals moduleState with
  | none => metadata
  | some (programId, params) => {
      complianceModules := metadata.complianceModules ++ [programId]
      complianceModuleParams := metadata.complianceModuleParams.set programId (some params) }

/-- Without a token state the amounts are written with six decimals. -/
def readComplianceMetadata (complianceState : List UInt8) (decimals : Option ℕ) :
    ComplianceMetadata :=
  let moduleStates := ((chain.getAccountInfo complianceState).map parseComplianceState).getD []
  moduleStates.foldl (addModule config chain (decimals.getD 6)) ⟨[], []⟩

/-- Everything that one pass reads of a deployment. -/
def readMetadata (tokenMint complianceState : List UInt8) (decimals : Option ℕ) : Metadata where
  toComplianceMetadata := readComplianceMetadata config chain complianceState decimals
  decimals := decimals
  claimTopics := readClaimTopics chain (config.ctrState tokenMint)
  trustedIssuers := readTrustedIssuers config chain (config.tirState tokenMint)

def buildIndexedMetadata (tokenMint complianceState : List UInt8) (decimals : Option ℕ) :
    Option Metadata :=
  let metadata := readMetadata config chain tokenMint complianceState decimals
  if metadata.claimTopics.length = 0 ∧ metadata.trustedIssuers.length = 0 ∧
      metadata.complianceModules.length = 0 ∧ decimals = none then none
  else some metadata

end Reading

/-! ## Metadata as a value -/

def TrustedIssuer.toJson (issuer : TrustedIssuer) : Value := .object [
  ("label", .string issuer.label),
  ("issuerFid", .string issuer.issuerFid),
  ("walletAddress", .string issuer.walletAddress),
  ("topics", .strings issuer.topics),
  ("active", .boolean issuer.active)]

/-- The four parts that the merge treats apart. -/
inductive Part
  | trustedIssuers
  | claimTopics
  | complianceModules
  | complianceModuleParams
  deriving DecidableEq

def Part.key : Part → String
  | trustedIssuers => "trustedIssuers"
  | claimTopics => "claimTopics"
  | complianceModules => "complianceModules"
  | complianceModuleParams => "complianceModuleParams"

def Metadata.part (metadata : Metadata) : Part → Value
  | .trustedIssuers => .array (metadata.trustedIssuers.map TrustedIssuer.toJson)
  | .claimTopics => .strings metadata.claimTopics
  | .complianceModules => .strings metadata.complianceModules
  | .complianceModuleParams => .object (metadata.complianceModuleParams.map fun entry ↦
      (entry.1, .texts entry.2))

def Metadata.toJson (metadata : Metadata) : Value := .object (
  metadata.decimals.toList.map (fun decimals ↦ ("decimals", .ofNat decimals)) ++ [
  ("claimTopics", metadata.part .claimTopics),
  ("trustedIssuers", metadata.part .trustedIssuers),
  ("complianceModules", metadata.part .complianceModules),
  ("complianceModuleParams", metadata.part .complianceModuleParams)])

/-! ## The merge -/

/-- A list with an item; for the parameters, a record with an entry. -/
def Part.filled : Part → Value → Bool
  | trustedIssuers => Value.filledArray
  | claimTopics => Value.filledArray
  | complianceModules => Value.filledArray
  | complianceModuleParams => Value.filledRecord

/-- The indexed part when it is filled, else the stored one. -/
def Part.choose (part : Part) (existing indexed : Record Value) : Option Value :=
  if (indexed.get part.key).any part.filled then indexed.get part.key else existing.get part.key

def mergeMetadata (existing indexed : Option Value) : Option (Record Value) :=
  match existing.bind Value.record?, indexed.bind Value.record? with
  | none, none => none
  | none, some indexed => some indexed
  | some existing, none => some existing
  | some existing, some indexed =>
      let set := fun (merged : Record Value) (part : Part) ↦
        merged.set part.key (part.choose existing indexed)
      some (set (set (set (set (existing.spread indexed) .trustedIssuers) .claimTopics)
        .complianceModules) .complianceModuleParams)

/-! ## The assets of the database -/

structure FactoryTokenInfo where
  asset_id : ℕ
  contract_address : String
  name : String
  symbol : String
  reference_id : String
  description : String
  legal_owner : String
  metadata : Option Value
  deployed_at : ℤ

def readTokenState (chain : Chain) (deployment : ParsedDeployment) : Option ParsedTokenState :=
  (chain.getAccountInfo deployment.tokenState).bind parseTokenState

def factoryTokenInfo (config : Config) (chain : Chain) (deployment : ParsedDeployment) :
    FactoryTokenInfo :=
  let tokenState := readTokenState chain deployment
  let metadata := buildIndexedMetadata config chain deployment.tokenMint
    deployment.complianceState (tokenState.map (·.decimals))
  let isin := (tokenState.map (·.isin)).getD ""
  { asset_id := deployment.deploymentId
    contract_address := toBase58 deployment.tokenMint
    name := (tokenState.map (·.name)).getD ""
    symbol := (tokenState.map (·.symbol)).getD ""
    reference_id := if isin = "" then toBase58 deployment.tokenMint else isin
    description := ""
    legal_owner := toBase58 deployment.issuer
    metadata := metadata.map Metadata.toJson
    deployed_at := deployment.deployedAt }

structure Asset where
  factoryAssetId : Option ℕ
  referenceId : Option String
  name : String
  symbol : String
  description : Option String
  issuerWallet : Option String
  legalOwner : Option String
  metadata : Option Value
  deployedAt : Option ℤ

/-- The assets by their contract. -/
abbrev Assets := String → Option Asset

/-- Metadata that is not given leaves the stored metadata, and is null in a new asset. -/
def upsertAsset (assets : Assets) (token : FactoryTokenInfo) : Assets :=
  let existing := assets token.contract_address
  let metadata := (mergeMetadata (existing.bind (·.metadata)) token.metadata).map Value.object
  Function.update assets token.contract_address (some {
    factoryAssetId := some token.asset_id
    referenceId := some token.reference_id
    name := token.name
    symbol := token.symbol
    description := some token.description
    issuerWallet := some token.legal_owner
    legalOwner := some token.legal_owner
    metadata := metadata.or (match existing with
      | some asset => asset.metadata
      | none => some .null)
    deployedAt := some (token.deployed_at * 1000) })

def upsertAssets (assets : Assets) (tokens : List FactoryTokenInfo) : Assets :=
  tokens.foldl upsertAsset assets

/-- The record stored as the metadata of an asset. -/
def storedMetadata (assets : Assets) (contract : String) : Option (Record Value) :=
  ((assets contract).bind (·.metadata)).bind Value.record?

def storedPart (assets : Assets) (contract : String) (part : Part) : Option Value :=
  (storedMetadata assets contract).bind fun metadata ↦ metadata.get part.key

/-! ## What the merge leaves -/

theorem Metadata.record_toJson (metadata : Metadata) :
    ∃ indexed, metadata.toJson.record? = some indexed ∧
      ∀ part : Part, Record.get indexed part.key = some (metadata.part part) := by
  refine ⟨_, rfl, fun part ↦ ?_⟩
  cases hdecimals : metadata.decimals <;> cases part <;> simp [Record.get_cons, Part.key]

/-- Each part of the merged record is the one chosen for it. -/
theorem mergeMetadata_part {existing indexed : Option Value} {stored read : Record Value}
    (hstored : existing.bind Value.record? = some stored)
    (hread : indexed.bind Value.record? = some read) :
    ∃ merged, mergeMetadata existing indexed = some merged ∧
      ∀ part : Part, merged.get part.key = part.choose stored read := by
  refine ⟨_, by rw [mergeMetadata, hstored, hread], fun part ↦ ?_⟩
  cases part <;> simp [Record.get_set, Part.key]

section Upsert

variable {assets : Assets} {token : FactoryTokenInfo}

theorem storedMetadata_upsertAsset : storedMetadata (upsertAsset assets token)
    token.contract_address =
      (mergeMetadata ((assets token.contract_address).bind (·.metadata)) token.metadata).or
        (storedMetadata assets token.contract_address) := by
  rw [storedMetadata, storedMetadata, upsertAsset, Function.update_self]
  cases mergeMetadata ((assets token.contract_address).bind (·.metadata)) token.metadata with
  | none => cases assets token.contract_address <;> rfl
  | some merged => rfl

theorem storedMetadata_upsertAsset_of_ne {contract : String}
    (h : contract ≠ token.contract_address) :
    storedMetadata (upsertAsset assets token) contract = storedMetadata assets contract := by
  rw [storedMetadata, storedMetadata, upsertAsset, Function.update_of_ne h]

/-- Tokens of other contracts leave the metadata as it is. -/
theorem storedMetadata_upsertAssets_of_ne {contract : String} {tokens : List FactoryTokenInfo}
    (h : ∀ token ∈ tokens, contract ≠ token.contract_address) :
    storedMetadata (upsertAssets assets tokens) contract = storedMetadata assets contract := by
  induction tokens generalizing assets with
  | nil => rfl
  | cons token tokens ih =>
      have hhead : contract ≠ token.contract_address := h token (by simp)
      have htail : storedMetadata (upsertAssets (upsertAsset assets token) tokens) contract =
          storedMetadata (upsertAsset assets token) contract :=
        ih fun token htoken ↦ h token (by simp [htoken])
      rw [storedMetadata_upsertAsset_of_ne hhead] at htail
      exact htail

end Upsert

/-! ## A pass -/

section Pass

variable (config : Config)

/-- The tokens of a pass, each read off the chain at its own time. -/
def tokensOf (readings : List (Chain × ParsedDeployment)) : List FactoryTokenInfo :=
  readings.map fun reading ↦ factoryTokenInfo config reading.1 reading.2

/-- What the pass has read of a deployment. -/
def metadataOf (chain : Chain) (deployment : ParsedDeployment) : Metadata :=
  readMetadata config chain deployment.tokenMint deployment.complianceState
    ((readTokenState chain deployment).map (·.decimals))

variable {config} {chain : Chain}

/-- Parameters are only recorded together with their module. -/
theorem modules_of_params {decimals : ℕ} {moduleStates : List (List UInt8)}
    {metadata : ComplianceMetadata}
    (h : metadata.complianceModules = [] → metadata.complianceModuleParams = []) :
    let read := moduleStates.foldl (addModule config chain decimals) metadata
    read.complianceModules = [] → read.complianceModuleParams = [] := by
  induction moduleStates generalizing metadata with
  | nil => exact h
  | cons moduleState moduleStates ih =>
      apply ih
      rw [addModule]
      cases readModule config chain decimals moduleState with
      | none => exact h
      | some program => simp

/-- Nothing is indexed only when nothing was found. -/
theorem part_of_not_indexed {tokenMint complianceState : List UInt8} {decimals : Option ℕ}
    (h : buildIndexedMetadata config chain tokenMint complianceState decimals = none)
    (part : Part) :
    part.filled ((readMetadata config chain tokenMint complianceState decimals).part part) =
      false := by
  have hparams :
      (readComplianceMetadata config chain complianceState decimals).complianceModules = [] →
        (readComplianceMetadata config chain complianceState decimals).complianceModuleParams =
          [] :=
    modules_of_params fun _ ↦ rfl
  rw [buildIndexedMetadata] at h
  simp only [ite_eq_left_iff, reduceCtorEq, imp_false, not_not, List.length_eq_zero_iff] at h
  obtain ⟨htopics, hissuers, hmodules, -⟩ := h
  cases part with
  | trustedIssuers => simp [Part.filled, Metadata.part, Value.filledArray, hissuers]
  | claimTopics =>
      simp [Part.filled, Metadata.part, Value.strings, Value.filledArray, htopics]
  | complianceModules =>
      simp [Part.filled, Metadata.part, Value.strings, Value.filledArray, hmodules]
  | complianceModuleParams =>
      have hempty : (readMetadata config chain tokenMint complianceState
          decimals).complianceModuleParams = [] := hparams hmodules
      simp [Part.filled, Metadata.part, Value.filledRecord, hempty]

/-- What one pass makes of a part: it is the one that was read when that is filled;
otherwise a stored record keeps its own, and without one nothing or the empty part is
stored. -/
def Part.Settled (part : Part) (prior : Option (Record Value)) (read : Value)
    (stored : Option Value) : Prop :=
  (part.filled read = true → stored = some read) ∧
  (part.filled read = false → ∀ record, prior = some record → stored = record.get part.key) ∧
  (part.filled read = false → prior = none → stored = none ∨ stored = some read)

theorem settled_merge {existing : Option Value} {built : Option Metadata} {metadata : Metadata}
    (hbuilt : built = some metadata ∨
      built = none ∧ ∀ part : Part, part.filled (metadata.part part) = false) (part : Part) :
    part.Settled (existing.bind Value.record?) (metadata.part part)
      (((mergeMetadata existing (built.map Metadata.toJson)).or (existing.bind Value.record?)).bind
        fun merged ↦ merged.get part.key) := by
  rcases hbuilt with rfl | ⟨rfl, hempty⟩
  · obtain ⟨indexed, hindexed, hparts⟩ := metadata.record_toJson
    cases hprior : existing.bind Value.record? with
    | none =>
        have hmerge : mergeMetadata existing ((some metadata).map Metadata.toJson) =
            some indexed := by
          simp [mergeMetadata, hprior, hindexed]
        rw [hmerge]
        have hpart : (some indexed).bind (fun merged ↦ Record.get merged part.key) =
            some (metadata.part part) := hparts part
        refine ⟨fun _ ↦ hpart, fun _ record hrecord ↦ ?_, fun _ _ ↦ .inr hpart⟩
        cases hrecord
    | some record =>
        obtain ⟨merged, hmerge, hchosen⟩ : ∃ merged,
            mergeMetadata existing ((some metadata).map Metadata.toJson) = some merged ∧
              ∀ part : Part, merged.get part.key = part.choose record indexed :=
          mergeMetadata_part hprior hindexed
        rw [hmerge]
        have hpart : (some merged).bind (fun merged ↦ Record.get merged part.key) =
            if part.filled (metadata.part part) then some (metadata.part part)
            else Record.get record part.key := by
          rw [Option.bind_some, hchosen part, Part.choose, hparts part]
          rfl
        refine ⟨fun hfilled ↦ ?_, fun hfilled _ hrecord ↦ ?_, fun _ hnone ↦ by cases hnone⟩
        · exact hpart.trans (if_pos hfilled)
        · cases hrecord
          exact hpart.trans (if_neg (by simp [hfilled]))
  · have hmerge : mergeMetadata existing ((none : Option Metadata).map Metadata.toJson) =
        existing.bind Value.record? := by
      cases hprior : existing.bind Value.record? <;> simp [mergeMetadata, hprior]
    rw [hmerge, Option.or_self]
    refine ⟨fun hfilled ↦ ?_, fun _ record hrecord ↦ ?_, fun _ hnone ↦ .inl ?_⟩
    · exact absurd hfilled (by simp [hempty part])
    · rw [hrecord, Option.bind_some]
    · rw [hnone, Option.bind_none]

theorem settled_upsertAsset (config : Config) (chain : Chain) (assets : Assets)
    (deployment : ParsedDeployment) (part : Part) :
    let token := factoryTokenInfo config chain deployment
    part.Settled (storedMetadata assets token.contract_address)
      ((metadataOf config chain deployment).part part)
      (storedPart (upsertAsset assets token) token.contract_address part) := by
  intro token
  rw [storedPart, storedMetadata_upsertAsset]
  apply settled_merge
  by_cases hbuilt : buildIndexedMetadata config chain deployment.tokenMint
      deployment.complianceState ((readTokenState chain deployment).map (·.decimals)) = none
  · exact .inr ⟨hbuilt, part_of_not_indexed hbuilt⟩
  · refine .inl ?_
    rw [buildIndexedMetadata] at hbuilt ⊢
    rw [ite_eq_left_iff, Classical.not_forall] at hbuilt
    obtain ⟨hfound, -⟩ := hbuilt
    exact if_neg hfound

/-- After a pass every asset that was read has the parts that were read last, apart from
the empty ones: these leave the record that was stored as it is. -/
theorem upserted_parts_settled (config : Config) (assets : Assets)
    (before after : List (Chain × ParsedDeployment)) (chain : Chain) (deployment : ParsedDeployment)
    (part : Part)
    (hlast : ∀ later ∈ after, toBase58 deployment.tokenMint ≠ toBase58 later.2.tokenMint) :
    let contract := toBase58 deployment.tokenMint
    part.Settled (storedMetadata (upsertAssets assets (tokensOf config before)) contract)
      ((metadataOf config chain deployment).part part)
      (storedPart (upsertAssets assets
        (tokensOf config (before ++ (chain, deployment) :: after))) contract part) := by
  intro contract
  have hafter : ∀ token ∈ tokensOf config after, contract ≠ token.contract_address := by
    intro token htoken
    obtain ⟨later, hlater, rfl⟩ := List.mem_map.1 htoken
    exact hlast later hlater
  have hsplit : upsertAssets assets (tokensOf config (before ++ (chain, deployment) :: after)) =
      upsertAssets (upsertAsset (upsertAssets assets (tokensOf config before))
        (factoryTokenInfo config chain deployment)) (tokensOf config after) := by
    simp [tokensOf, upsertAssets]
  rw [storedPart, hsplit, storedMetadata_upsertAssets_of_ne hafter]
  exact settled_upsertAsset config chain (upsertAssets assets (tokensOf config before)) deployment
    part

end Pass

/-! ## A pass over an asset without topics -/

def config : Config where
  moduleIds := moduleProgramIds
  tirProgram := (Decoders.key 20).toList
  ctrState := fun mint ↦ mint.map (· + 100)
  tirState := fun mint ↦ mint.map (· + 200)

/-- Every account has zeros only: no topics, no modules. -/
def chain : Chain where
  getAccountInfo := fun _ ↦ some ⟨(Decoders.key 21).toList, List.replicate 200 0⟩
  getProgramAccounts := fun _ ↦ []

def otherDeployment : ParsedDeployment :=
  { deploymentOf deployment with tokenMint := (Decoders.key 30).toList }

def stored : Asset where
  factoryAssetId := some 1
  referenceId := none
  name := "asset"
  symbol := "AST"
  description := none
  issuerWallet := none
  legalOwner := none
  metadata := some (.object [("claimTopics", .strings ["1"])])
  deployedAt := none

theorem topicless_asset_settled :
    Part.claimTopics.Settled (storedMetadata (fun _ ↦ some stored)
        (toBase58 (deploymentOf deployment).tokenMint))
      ((metadataOf config chain (deploymentOf deployment)).part .claimTopics)
      (storedPart (upsertAssets (fun _ ↦ some stored) (tokensOf config
        [(chain, deploymentOf deployment), (chain, otherDeployment)]))
        (toBase58 (deploymentOf deployment).tokenMint) .claimTopics) := by
  refine upserted_parts_settled config (fun _ ↦ some stored) [] [(chain, otherDeployment)] chain
    (deploymentOf deployment) .claimTopics ?_
  rw [List.forall_mem_singleton]
  decide +kernel

/-- The asset has no topic on chain any more and keeps the one that was stored. -/
theorem stored_topics_outlive_chain : ¬ ∀ (config : Config) (assets : Assets)
    (before after : List (Chain × ParsedDeployment)) (chain : Chain) (deployment : ParsedDeployment)
    (part : Part),
    (∀ later ∈ after, toBase58 deployment.tokenMint ≠ toBase58 later.2.tokenMint) →
      storedPart (upsertAssets assets (tokensOf config (before ++ (chain, deployment) :: after)))
        (toBase58 deployment.tokenMint) part =
          some ((metadataOf config chain deployment).part part) := by
  intro hclaim
  have hread := hclaim config (fun _ ↦ some stored) [] [] chain (deploymentOf deployment)
    .claimTopics (by simp)
  have hsettled := settled_upsertAsset config chain (fun _ ↦ some stored)
    (deploymentOf deployment) .claimTopics
  have hempty : Part.claimTopics.filled
      ((metadataOf config chain (deploymentOf deployment)).part .claimTopics) = false := by
    decide +kernel
  have hkept := hsettled.2.1 hempty [("claimTopics", .strings ["1"])] rfl
  have htopics : (metadataOf config chain (deploymentOf deployment)).part .claimTopics =
      .strings ["1"] := Option.some.inj (hread.symm.trans hkept)
  rw [htopics] at hempty
  cases hempty

end Fracks.Indexer
