import Fracks.Identity.RegisteredCount
import Fracks.Token.ReportedCountries
import Fracks.StrandedBalances
import Fracks.VerifiedWallets

/-!
# Residences

A token account is in the country in which the registry of its token has the owner.  It leaves the
country without a transfer when the identity of the owner is given another one or is removed, so
that such changes are told apart by whether the wallet holds tokens.
-/

namespace Fracks

open Checked AccountType Ledger Tally Irp Runs

/-! ## Residences -/

/-- The country in which a storage of identities has a wallet. -/
def registeredIn (L : Ledger) (irs wallet : Pubkey) : Option ℕ :=
  ((L.view WalletIdentity (walletIdentityAddress irs wallet)).filter fun identity ↦
    identity.wallet = wallet ∧ identity.irs = irs).map WalletIdentity.country

/-- The country of the owner of a token account. -/
def residence (L : Ledger) (irs k : Pubkey) : Option ℕ :=
  (L.view TokenAccount k).bind fun a ↦ registeredIn L irs a.owner

/-- The token accounts of `T` with a positive balance whose owner is in the country. -/
def residents (T irs : Pubkey) (L : Ledger) (country : ℕ) : Set Pubkey :=
  {k | 0 < balance L T k ∧ residence L irs k = some country}

/-- Accounts with tokens of `T` keep the country of their owner. -/
def ResidencesKept (T irs : Pubkey) (L L' : Ledger) : Prop :=
  ∀ k, 0 < balance L' T k → residence L' irs k = residence L irs k

variable {L L' L₁ L₂ : Ledger} {T irs wallet k : Pubkey} {signers : List Pubkey} {country : ℕ}
  {S : List AccountKind}

theorem residence_of_account {a : TokenAccount} (h : L.accounts k = account a) :
    residence L irs k = registeredIn L irs a.owner := by
  rw [residence, view_eq_some.2 h, Option.bind_some]

theorem account_of_positive (h : 0 < balance L T k) :
    ∃ a : TokenAccount, L.accounts k = account a ∧ a.mint = T ∧ 0 < a.amount := by
  unfold balance at h
  split at h
  · rename_i a ha
    split at h
    · exact ⟨a, view_eq_some.1 ha, ‹_›, h⟩
    · exact absurd h (Nat.lt_irrefl 0)
  · exact absurd h (Nat.lt_irrefl 0)

/-- The residents are the holders in that part of the table. -/
theorem ncard_residents (hkept : ResidencesKept T irs L L') :
    (residents T irs L' country).ncard =
      positives (among (fun k ↦ residence L irs k = some country) (balance L' T)) := by
  rw [positives_among]
  congr 1
  ext k
  simp only [residents, Set.mem_ofPred_eq]
  constructor
  · rintro ⟨hpos, hcountry⟩
    exact ⟨hpos, (hkept k hpos).symm.trans hcountry⟩
  · rintro ⟨hpos, hcountry⟩
    exact ⟨hpos, (hkept k hpos).trans hcountry⟩

theorem ResidencesKept.refl : ResidencesKept T irs L L := fun _ _ ↦ rfl

theorem ResidencesKept.trans (h : ResidencesKept T irs L L₁) (h' : ResidencesKept T irs L₁ L')
    (hbalance : balance L' T = balance L₁ T) : ResidencesKept T irs L L' := by
  intro k hk
  exact (h' k hk).trans (h k (hbalance ▸ hk))

theorem ResidencesKept.of_owners (howners : OwnersKept L L')
    (hidentities : L'.view WalletIdentity = L.view WalletIdentity) :
    ResidencesKept T irs L L' := by
  intro k hk
  obtain ⟨a', ha', -, -⟩ := account_of_positive hk
  obtain ⟨a, ha, -, howner⟩ := howners k a' ha'
  rw [residence_of_account ha', residence_of_account ha, howner, registeredIn, registeredIn,
    hidentities]

theorem ResidencesKept.of_frame (h : Frame S L L') (htokens : AccountKind.tokenAccount ∉ S)
    (hidentities : AccountKind.walletIdentity ∉ S) : ResidencesKept T irs L L' :=
  .of_owners (.of_frame h htokens) (funext (h.view_eq hidentities))

/-! ## The storage of a token -/

/-- The registry of `T` links to this storage of identities. -/
def Linked (T irs : Pubkey) (L : Ledger) : Prop :=
  ∃ (ts : TokenState) (registry : IdentityRegistryState),
    L.accounts (Token.tokenStateAddress T) = account ts ∧
      L.accounts ts.identityRegistry = account registry ∧ registry.irsAccount = irs

theorem Linked.of_frame (h : Linked T irs L) (hframe : Frame S L L')
    (htoken : AccountKind.tokenState ∉ S) (hregistry : AccountKind.identityRegistryState ∉ S) :
    Linked T irs L' := by
  obtain ⟨ts, registry, hts, hregistryAt, hirs⟩ := h
  exact ⟨ts, registry, hframe.accounts_eq htoken hts, hframe.accounts_eq hregistry hregistryAt,
    hirs⟩

section Countries

variable [Borsh] {wallet walletIdentity : Pubkey} {identity : WalletIdentity}

theorem registeredIn_of_found (hown : OnlyIdentities L)
    (h : findWalletIdentity L wallet irs walletIdentity = .ok (some identity)) :
    registeredIn L irs wallet = some identity.country := by
  obtain ⟨rfl, hview, hwallet, hirs⟩ := findWalletIdentity_view hown h
  simp [registeredIn, hview, Option.filter, hwallet, hirs]

/-- The registry of `T` verifies wallets against the storage that it links to. -/
theorem Linked.verified {ts : TokenState} {accts : Token.RegistryAccounts}
    {remaining : List Pubkey} (hlinked : Linked T irs L) (hown : OnlyIdentities L)
    (hts : L.accounts (Token.tokenStateAddress T) = account ts)
    (h : Token.verifyWalletAgainstIrp L ts wallet accts walletIdentity remaining = .ok identity) :
    accts.irsState = irs ∧ registeredIn L irs wallet = some identity.country := by
  obtain ⟨hlink, hfound⟩ := Token.verifyWalletAgainstIrp_found h
  obtain ⟨ts', registry, hts', hregistry, rfl⟩ := hlinked
  obtain rfl := account_inj.1 (hts.symm.trans hts')
  have hirs : accts.irsState = registry.irsAccount := by
    rw [Token.linkedStorage, hregistry, account_data, Borsh.decodeView_encode, Option.map_some,
      Option.some.injEq] at hlink
    exact hlink.symm
  exact ⟨hirs, registeredIn_of_found hown (hirs ▸ hfound)⟩

end Countries

/-! ## Identities that change -/

/-- The identity at `k` can be given this country, or none: it is in another storage or in the
country already, or its wallet holds none of `T`. -/
def MayBecome (T irs k : Pubkey) (L : Ledger) (country : Option ℕ) : Prop :=
  ∀ identity : WalletIdentity, L.accounts k = account identity → identity.irs = irs →
    country = some identity.country ∨ NoHoldings T identity.wallet L

/-- One identity is rewritten or closed. -/
structure Rewritten (k : Pubkey) (old : WalletIdentity) (new : Option WalletIdentity)
    (L L' : Ledger) : Prop where
  before : L.accounts k = account old
  tokens : L'.view TokenAccount = L.view TokenAccount
  identities : L'.view WalletIdentity = Function.update (L.view WalletIdentity) k new
  same : ∀ identity ∈ new, identity.wallet = old.wallet ∧ identity.irs = old.irs

variable {old : WalletIdentity} {new : Option WalletIdentity}

theorem Rewritten.registeredIn_eq (h : Rewritten k old new L L')
    (hsame : old.wallet = wallet → old.irs = irs →
      new.map WalletIdentity.country = some old.country) :
    registeredIn L' irs wallet = registeredIn L irs wallet := by
  unfold registeredIn
  rw [h.identities]
  by_cases hk : walletIdentityAddress irs wallet = k
  · rw [hk, Function.update_self, view_eq_some.2 h.before]
    by_cases hmatch : old.wallet = wallet ∧ old.irs = irs
    · have hcountry := hsame hmatch.1 hmatch.2
      cases new with
      | none => exact nomatch hcountry
      | some identity =>
          obtain ⟨hwallet, hirs⟩ := h.same identity rfl
          simpa [Option.filter, hmatch, hwallet, hirs] using hcountry
    · cases new with
      | none => simp [Option.filter, hmatch]
      | some identity =>
          obtain ⟨hwallet, hirs⟩ := h.same identity rfl
          simp [Option.filter, hmatch, hwallet, hirs]
  · rw [Function.update_of_ne hk]

theorem Rewritten.balance_eq (h : Rewritten k old new L L') : balance L' T = balance L T := by
  funext x
  simp only [balance, h.tokens]

theorem Rewritten.residencesKept (h : Rewritten k old new L L')
    (hmay : MayBecome T irs k L (new.map WalletIdentity.country)) :
    ResidencesKept T irs L L' := by
  intro x hx
  rw [h.balance_eq] at hx
  obtain ⟨a, ha, hmint, hpos⟩ := account_of_positive hx
  have ha' : L'.accounts x = account a := by
    rw [← view_eq_some, h.tokens, view_eq_some, ha]
  rw [residence_of_account ha', residence_of_account ha]
  apply h.registeredIn_eq
  intro hwallet hirs
  rcases hmay old h.before hirs with hcountry | hnone
  · exact hcountry
  · have hzero := hnone x a ha hmint hwallet.symm
    omega

theorem Rewritten.noHoldings (h : Rewritten k old new L L') (hL : NoHoldings T wallet L) :
    NoHoldings T wallet L' := by
  intro x a ha
  rw [← view_eq_some, h.tokens, view_eq_some] at ha
  exact hL x a ha

/-- Another identity, or the one that is rewritten, was of the same wallet in the same storage. -/
theorem Rewritten.identity_before (h : Rewritten k old new L L') {x : Pubkey}
    {identity : WalletIdentity} (hx : L'.accounts x = account identity) :
    ∃ before : WalletIdentity, L.accounts x = account before ∧ identity.wallet = before.wallet ∧
      identity.irs = before.irs := by
  rw [← view_eq_some, h.identities] at hx
  by_cases hk : x = k
  · subst hk
    rw [Function.update_self] at hx
    exact ⟨old, h.before, h.same identity hx⟩
  · rw [Function.update_of_ne hk] at hx
    exact ⟨identity, view_eq_some.1 hx, rfl, rfl⟩

theorem MayBecome.rewritten {x : Pubkey} (hmay : MayBecome T irs x L none)
    (h : Rewritten k old new L L') : MayBecome T irs x L' none := by
  intro identity hx hirs
  obtain ⟨before, hbefore, hwallet, hstorage⟩ := h.identity_before hx
  rcases hmay before hbefore (hstorage ▸ hirs) with hnever | hnone
  · exact nomatch hnever
  · exact .inr (hwallet ▸ h.noHoldings hnone)

/-- An identity that has kept its country can still be given what it could. -/
theorem Rewritten.mayBecome (h : Rewritten k old new L L')
    (hcountry : new.map WalletIdentity.country = some old.country)
    {becomes : Option ℕ}
    (hmay : MayBecome T irs k L becomes) : MayBecome T irs k L' becomes := by
  intro identity hk hirs
  rw [← view_eq_some, h.identities, Function.update_self] at hk
  subst hk
  obtain ⟨hwallet, hstorage⟩ := h.same identity rfl
  have hsame : identity.country = old.country := Option.some.inj hcountry
  rcases hmay old h.before (hstorage ▸ hirs) with hbecomes | hnone
  · exact .inl (hsame ▸ hbecomes)
  · exact .inr (hwallet ▸ h.noHoldings hnone)

section Storage

variable [Borsh] {accts : Irs.IdentityAccounts}

theorem Irs.updateIdentity_rewritten {newFid : Pubkey}
    (h : Irs.updateIdentity L signers accts newFid = .ok L') :
    ∃ identity, Rewritten accts.walletIdentity identity (some { identity with fid := newFid })
      L L' := by
  obtain ⟨identity, hidentity, hwritten⟩ := Irs.updateIdentity_ok h
  have htokens := (Irs.frame_updateIdentity h).view_eq (α := TokenAccount) (by decide)
  exact ⟨identity, hidentity, funext htokens, hwritten.identities, fun _ hnew ↦ by
    obtain rfl := Option.some.inj hnew
    exact ⟨rfl, rfl⟩⟩

theorem Irs.updateCountry_rewritten {newCountry : ℕ}
    (h : Irs.updateCountry L signers accts newCountry = .ok L') :
    ∃ identity, Rewritten accts.walletIdentity identity
      (some { identity with country := newCountry }) L L' := by
  obtain ⟨identity, hidentity, hwritten⟩ := Irs.updateCountry_ok h
  have htokens := (Irs.frame_updateCountry h).view_eq (α := TokenAccount) (by decide)
  exact ⟨identity, hidentity, funext htokens, hwritten.identities, fun _ hnew ↦ by
    obtain rfl := Option.some.inj hnew
    exact ⟨rfl, rfl⟩⟩

theorem Irs.removeIdentity_rewritten (h : Irs.removeIdentity L signers accts = .ok L') :
    ∃ identity, Rewritten accts.walletIdentity identity none L L' := by
  have hremoved := Irs.removeIdentity_ok h
  obtain ⟨_, identity, -, hidentity, -, -⟩ := hremoved.removed
  have htokens := (Irs.frame_removeIdentity h).view_eq (α := TokenAccount) (by decide)
  exact ⟨identity, hidentity, funext htokens, hremoved.identities, fun _ hnew ↦ nomatch hnew⟩

/-- The finalization of a recovery keeps the holders where they are if the new wallet may have the
country of the lost one and the lost one none. -/
theorem Token.FinalizeCalls.residencesKept {operator : Token.OperatorAccounts}
    {accts : Token.FinalizeAccounts} {lost : WalletIdentity}
    (h : Token.FinalizeCalls L L' signers operator accts lost L₁ L₂)
    (hnew : MayBecome T irs accts.newWalletIdentity L (some lost.country))
    (hlost : MayBecome T irs accts.lostWalletIdentity L none) : ResidencesKept T irs L L' := by
  obtain ⟨identity, hidentity⟩ := Irs.updateIdentity_rewritten h.identity
  obtain ⟨identity', hcountry⟩ := Irs.updateCountry_rewritten h.country
  obtain ⟨identity'', hremoved⟩ := Irs.removeIdentity_rewritten h.removed
  have hfirst : ResidencesKept T irs L L₁ :=
    hidentity.residencesKept fun before hbefore _ ↦ .inl (by
      obtain rfl := account_inj.1 (hidentity.before.symm.trans hbefore)
      rfl)
  have hsecond : ResidencesKept T irs L₁ L₂ :=
    hcountry.residencesKept (hidentity.mayBecome rfl hnew)
  have hthird : ResidencesKept T irs L₂ L' :=
    hremoved.residencesKept ((hlost.rewritten hidentity).rewritten hcountry)
  exact (hfirst.trans hsecond hcountry.balance_eq).trans hthird hremoved.balance_eq

end Storage

end Fracks
