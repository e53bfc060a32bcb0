import Fracks.AccountDecoders

/-!
# The indexer of the backend

The indexer asks for the factory's accounts of one size and parses each of them at
offsets of its own.  The size is that of an older deployment record, so none of the
accounts that the factory creates is among them.
-/

namespace Fracks.Indexer

open Bytes Layouts Decoders

/-- The space of a deployment on chain. -/
def tokenDeploymentSpace : ℕ := 8 + 8 + 8 + 32 + (32 * 11) + 8 + 1

/-- The size the indexer filters for. -/
def tokenDeploymentSize : ℕ := 345

structure ParsedDeployment where
  deploymentId : ℕ
  issuer : List UInt8
  tokenMint : List UInt8
  tokenState : List UInt8
  complianceState : List UInt8
  deployedAt : ℤ
  deriving DecidableEq

def parseTokenDeployment (data : List UInt8) : Except JsError (Option ParsedDeployment) :=
  if data.length < tokenDeploymentSize then .ok none
  else do
    let (deploymentId, offset) ← readU64 data 8
    let (issuer, offset) ← readPubkey data offset
    -- the salt
    let offset := offset + 32
    let (tokenMint, offset) ← readPubkey data offset
    let (tokenState, offset) ← readPubkey data offset
    -- the owner state and the four identity registries
    let offset := offset + 32 + 32 + 32 + 32 + 32
    let (complianceState, offset) ← readPubkey data offset
    let (deployedAt, _) ← readI64 data offset
    .ok (some { deploymentId, issuer, tokenMint, tokenState, complianceState, deployedAt })

/-- The deployments found among the accounts of the factory. -/
def fetchAllFactoryTokens (accounts : List (List UInt8)) :
    Except JsError (List ParsedDeployment) := do
  let parsed ← (accounts.filter fun data ↦ data.length = tokenDeploymentSize).mapM
    parseTokenDeployment
  .ok (parsed.filterMap id)

/-! ## The accounts of the factory -/

/-- What the indexer should find of a deployment. -/
def deploymentOf : Record tokenDeployment → ParsedDeployment
  | (deploymentId, _, issuer, _, tokenMint, tokenState, _, _, _, _, _, complianceState, _, _,
      deployedAt, _) =>
      { deploymentId := UInt64.toNat deploymentId
        issuer := Vector.toList (α := UInt8) (n := 32) issuer
        tokenMint := Vector.toList (α := UInt8) (n := 32) tokenMint
        tokenState := Vector.toList (α := UInt8) (n := 32) tokenState
        complianceState := Vector.toList (α := UInt8) (n := 32) complianceState
        deployedAt := Int64.toInt deployedAt }

/-- A deployment passes the filter and is parsed to what it is. -/
def Indexed (record : Record tokenDeployment) (data : List UInt8) : Prop :=
  data.length = tokenDeploymentSize ∧
    parseTokenDeployment data = .ok (some (deploymentOf record))

/-- The data of a deployment fills its space. -/
theorem length_accountData (discriminator : Vector UInt8 8) (record : Record tokenDeployment) :
    ∃ data, accountData discriminator tokenDeploymentSpace tokenDeployment record = some data ∧
      data.length = tokenDeploymentSpace := by
  obtain ⟨data, hdata, hlength⟩ := length_serialize (n := 409) rfl discriminator record
  refine ⟨_, by rw [accountData, hdata, Option.map_some], ?_⟩
  rw [List.length_append, List.length_replicate, hlength]
  decide

/-- An account of another size is dropped by the filter. -/
theorem fetchAllFactoryTokens_cons {data : List UInt8} (h : data.length ≠ tokenDeploymentSize)
    (accounts : List (List UInt8)) :
    fetchAllFactoryTokens (data :: accounts) = fetchAllFactoryTokens accounts := by
  have hfilter : (data :: accounts).filter (fun data ↦ data.length = tokenDeploymentSize) =
      accounts.filter fun data ↦ data.length = tokenDeploymentSize :=
    List.filter_cons_of_neg (by simpa using h)
  rw [fetchAllFactoryTokens, fetchAllFactoryTokens, hfilter]

/-- No deployment on chain is indexed, whatever other accounts there are. -/
theorem deployment_never_indexed (discriminator : Vector UInt8 8)
    (record : Record tokenDeployment) :
    ∃ data, accountData discriminator tokenDeploymentSpace tokenDeployment record = some data ∧
      ¬ Indexed record data ∧ ∀ accounts,
        fetchAllFactoryTokens (data :: accounts) = fetchAllFactoryTokens accounts := by
  obtain ⟨data, hdata, hlength⟩ := length_accountData discriminator record
  have hsize : data.length ≠ tokenDeploymentSize := by
    rw [hlength]
    decide
  exact ⟨data, hdata, fun hindexed ↦ hsize hindexed.1, fetchAllFactoryTokens_cons hsize⟩

/-! ## A deployment -/

def deployment : Record tokenDeployment :=
  ((1 : UInt64), (7 : UInt64), key 1, key 2, key 3, key 4, key 5, key 6, key 7, key 8, key 9,
    key 10, key 11, key 12, (1000 : Int64), (255 : UInt8), ())

/-- The first deployment of an asset is not seen. -/
theorem first_deployment_unseen : ¬ ∀ (discriminator : Vector UInt8 8)
    (record : Record tokenDeployment), ∃ data,
      accountData discriminator tokenDeploymentSpace tokenDeployment record = some data ∧
        Indexed record data := by
  intro hclaim
  obtain ⟨data, hdata, hsize, -⟩ := hclaim discriminator deployment
  obtain ⟨data', hdata', hlength⟩ := length_accountData discriminator deployment
  obtain rfl := Option.some.inj (hdata.symm.trans hdata')
  rw [hlength] at hsize
  exact absurd hsize (by decide)

end Fracks.Indexer
