import Fracks.Custody
import Fracks.Deployment
import Fracks.Lib.Runs

/-!
# After the end of custody

The owner of the platform ends custody by releasing the mandate or by revoking
the role of its custodian.  The custody gate looks at the mandate and at its
attestation and at neither of these events, so what follows is read off the
instructions that make a mandate active and an attestation valid.
-/

namespace Fracks.Factory

open Checked AccountType Ledger Runs

/-! ## Histories -/

inductive Label
  | instruction (signers : List Pubkey) (i : Instruction)
  | environment

/-- The kinds of the records that the gate reads and of those behind them. -/
def custodyKinds : List AccountKind := [.platformAuthority, .custodyMandate, .custodyAttestation]

/-- An instruction of the factory, or anything else that leaves roles, mandates and
attestations alone while the clock does not go back. -/
inductive Step : Ledger → Label → Ledger → Prop
  | instruction {L L' : Ledger} (signers : List Pubkey) (i : Instruction) :
      process L signers i = .ok L' → Step L (.instruction signers i) L'
  | environment {L L' : Ledger} (S : List AccountKind) : Frame S L L' →
      (∀ kind ∈ custodyKinds, kind ∉ S) → L.now ≤ L'.now → Step L .environment L'

/-- There are no mandates and no attestations yet. -/
def NoCustody (L : Ledger) : Prop :=
  (∀ k, L.view CustodyMandate k = none) ∧ ∀ k, L.view CustodyAttestation k = none

/-- Mandates are at their seeds between two parties, and every attestation is about
the mandate that its address is derived from. -/
structure CustodyBooks (L : Ledger) : Prop where
  mandates : ∀ k (m : CustodyMandate), L.accounts k = account m →
    k = custodyMandateAddress m.assetId ∧ m.issuerFid ≠ m.custodianFid
  attestations : ∀ k (a : CustodyAttestation), L.accounts k = account a →
    ∃ (K : Pubkey) (m : CustodyMandate), L.accounts K = account m ∧ Attests K m a ∧
      k = custodyAttestationAddress K

variable {L L' : Ledger} {signers : List Pubkey} {k x : Pubkey} {l : Label}

theorem custodyAttestationAddress_inj {k k' : Pubkey} :
    custodyAttestationAddress k = custodyAttestationAddress k' ↔ k = k' := by
  simp [custodyAttestationAddress, Pubkey.findProgramAddress, Pubkey.addSeed]

theorem NoCustody.books (h : NoCustody L) : CustodyBooks L where
  mandates k m hm := by
    rw [← view_eq_some, h.1] at hm
    exact nomatch hm
  attestations k a ha := by
    rw [← view_eq_some, h.2] at ha
    exact nomatch ha

/-- Mandates and attestations are the same. -/
theorem CustodyBooks.congr (h : CustodyBooks L)
    (hm : ∀ k, L'.view CustodyMandate k = L.view CustodyMandate k)
    (ha : ∀ k, L'.view CustodyAttestation k = L.view CustodyAttestation k) : CustodyBooks L' where
  mandates k m hmandate := by
    rw [← view_eq_some, hm, view_eq_some] at hmandate
    exact h.mandates k m hmandate
  attestations k a hattestation := by
    rw [← view_eq_some, ha, view_eq_some] at hattestation
    obtain ⟨K, m, hK, hrest⟩ := h.attestations k a hattestation
    rw [← view_eq_some, ← hm, view_eq_some] at hK
    exact ⟨K, m, hK, hrest⟩

/-- A mandate changes its status only. -/
theorem CustodyBooks.put_mandate (h : CustodyBooks L) {m m' : CustodyMandate}
    (hm : L.accounts k = account m) (hasset : m'.assetId = m.assetId)
    (hissuer : m'.issuerFid = m.issuerFid) (hcustodian : m'.custodian = m.custodian)
    (hfid : m'.custodianFid = m.custodianFid) : CustodyBooks (L.put k m') where
  mandates x n hn := by
    by_cases hx : x = k
    · subst hx
      rw [put_accounts_self, account_inj] at hn
      subst hn
      rw [hasset, hissuer, hfid]
      exact h.mandates x m hm
    · rw [put_accounts_of_ne _ hx] at hn
      exact h.mandates x n hn
  attestations x a ha := by
    have hx : x ≠ k := by
      rintro rfl
      rw [put_accounts_self] at ha
      exact account_ne_of_kind (by decide) ha
    rw [put_accounts_of_ne _ hx] at ha
    obtain ⟨K, n, hn, hattests, haddress⟩ := h.attestations x a ha
    by_cases hK : K = k
    · subst hK
      obtain rfl : n = m := account_inj.1 (hn.symm.trans hm)
      obtain ⟨hon, hkey, hof, hby, hbyFid⟩ := hattests
      exact ⟨K, m', put_accounts_self _, ⟨hon, hkey, hof.trans hasset.symm,
        hby.trans hcustodian.symm, hbyFid.trans hfid.symm⟩, haddress⟩
    · exact ⟨K, n, by rw [put_accounts_of_ne _ hK, hn], hattests, haddress⟩

/-- A new mandate of another asset. -/
theorem CustodyBooks.new_mandate (h : CustodyBooks L) {m : CustodyMandate}
    (hvacant : L.accounts k = .vacant) (hm : L'.accounts k = account m)
    (hother : ∀ x, x ≠ k → L'.accounts x = L.accounts x)
    (hk : k = custodyMandateAddress m.assetId) (hparties : m.issuerFid ≠ m.custodianFid) :
    CustodyBooks L' where
  mandates x n hn := by
    by_cases hx : x = k
    · obtain rfl : n = m := account_inj.1 ((hx ▸ hn).symm.trans hm)
      exact ⟨hx.trans hk, hparties⟩
    · exact h.mandates x n (hother x hx ▸ hn)
  attestations x a ha := by
    have hx : x ≠ k := by
      rintro rfl
      exact account_ne_of_kind (by decide) (ha.symm.trans hm)
    obtain ⟨K, n, hn, hattests, haddress⟩ := h.attestations x a (hother x hx ▸ ha)
    have hK : K ≠ k := by
      rintro rfl
      exact account_ne_vacant n (hn.symm.trans hvacant)
    exact ⟨K, n, (hother K hK).trans hn, hattests, haddress⟩

/-- A first or renewed attestation of a mandate. -/
theorem CustodyBooks.put_attestation (h : CustodyBooks L) {m : CustodyMandate}
    {a : CustodyAttestation} (hm : L.accounts k = account m) (hattests : Attests k m a)
    (ha : L'.accounts (custodyAttestationAddress k) = account a)
    (hother : ∀ x, x ≠ custodyAttestationAddress k → L'.accounts x = L.accounts x)
    (hframe : Frame [.custodyAttestation] L L') : CustodyBooks L' where
  mandates x n hn := by
    rw [← view_eq_some, hframe.view_eq (by decide), view_eq_some] at hn
    exact h.mandates x n hn
  attestations x b hb := by
    by_cases hx : x = custodyAttestationAddress k
    · obtain rfl : b = a := account_inj.1 ((hx ▸ hb).symm.trans ha)
      exact ⟨k, m, hframe.accounts_eq (by decide) hm, hattests, hx⟩
    · obtain ⟨K, n, hn, hrest⟩ := h.attestations x b (hother x hx ▸ hb)
      exact ⟨K, n, hframe.accounts_eq (by decide) hn, hrest⟩

/-- Instructions on other records. -/
theorem CustodyBooks.of_frame (h : CustodyBooks L) {S : List AccountKind} (hframe : Frame S L L')
    (hmandate : AccountKind.custodyMandate ∉ S)
    (hattestation : AccountKind.custodyAttestation ∉ S) : CustodyBooks L' :=
  h.congr (hframe.view_eq (α := CustodyMandate) hmandate)
    (hframe.view_eq (α := CustodyAttestation) hattestation)

/-- What an attestation says of the mandate it is stored for. -/
theorem CustodyBooks.attests (h : CustodyBooks L) {m : CustodyMandate} {a : CustodyAttestation}
    (hm : L.accounts k = account m) (ha : L.accounts (custodyAttestationAddress k) = account a) :
    Attests k m a := by
  obtain ⟨K, n, hn, hattests, haddress⟩ := h.attestations _ a ha
  obtain rfl := custodyAttestationAddress_inj.1 haddress
  obtain rfl : n = m := account_inj.1 (hn.symm.trans hm)
  exact hattests

theorem CustodyBooks.process {i : Instruction} (h : CustodyBooks L)
    (hprocess : process L signers i = .ok L') : CustodyBooks L' := by
  cases i with
  | initializeFactory | updateProgramIds | transferFactoryOwnership | approvePlatformAuthority
  | revokePlatformAuthority =>
      exact h.of_frame (process_frame hprocess).1 (by simp [Instruction.kind])
        (by simp [Instruction.kind])
  | createCustodyMandate accts assetId issuerFid custodian custodianFid =>
      obtain ⟨hparties, hinit⟩ := createCustodyMandate_ok hprocess
      obtain ⟨hk, hvacant, hm, hother⟩ := initRecord_ok hinit
      exact h.new_mandate hvacant hm hother hk hparties
  | acceptCustodyMandate custodian custodyMandate custodianFidAccount =>
      obtain ⟨m, hm, rfl⟩ := acceptCustodyMandate_ok hprocess
      exact h.put_mandate hm rfl rfl rfl rfl
  | attestCustody custodian custodyMandate custodyAttestation documentHash attestationHash
      validitySeconds =>
      obtain ⟨m, a, hm, -, rfl, hattests, -, ha, hother, -, hframe⟩ := attestCustody_ok hprocess
      exact h.put_attestation hm hattests ha hother hframe
  | attestReserve custodian custodyMandate custodyAttestation reserveRatioBps attestationHash
      validitySeconds =>
      obtain ⟨m, old, a, hm, -, rfl, hold, hkept, -, rfl⟩ := attestReserve_ok hprocess
      exact h.put_attestation hm (hkept (h.attests hm hold)) (put_accounts_self a)
        (fun x hx ↦ put_accounts_of_ne a hx) (.put hold (by decide))
  | releaseCustodyMandate authority factoryState custodyMandate =>
      obtain ⟨m, hm, rfl⟩ := releaseCustodyMandate_ok hprocess
      exact h.put_mandate hm rfl rfl rfl rfl

theorem CustodyBooks.step (h : CustodyBooks L) (hstep : Step L l L') : CustodyBooks L' := by
  cases hstep with
  | instruction signers i hprocess => exact h.process hprocess
  | environment S hframe hS _ =>
      exact h.of_frame hframe (hS _ (by decide)) (hS _ (by decide))

/-! ## The gate -/

def Active (k : Pubkey) (L : Ledger) : Prop :=
  ∃ m : CustodyMandate, L.accounts k = account m ∧ m.active = true ∧ m.accepted = true

/-- There is an attestation for `k` that has not expired. -/
def Attested (k : Pubkey) (L : Ledger) : Prop :=
  ∃ a : CustodyAttestation, L.accounts (custodyAttestationAddress k) = account a ∧
    L.now < a.expiresAt

/-- The gate accepts the mandate, for its asset and with some attestation. -/
def GateAccepts (k : Pubkey) (L : Ledger) : Prop :=
  ∃ custodyAttestation assetId custody, loadCustody L k custodyAttestation assetId = .ok custody

theorem gateAccepts_iff (h : CustodyBooks L) : GateAccepts k L ↔ Active k L ∧ Attested k L := by
  constructor
  · rintro ⟨_, _, ⟨m, a⟩, haccepts⟩
    obtain ⟨hm, -, ha, rfl, -, hactive, -, -, hexpires⟩ := loadCustody_eq_ok.1 haccepts
    exact ⟨⟨m, hm, hactive⟩, a, ha, hexpires⟩
  · rintro ⟨⟨m, hm, hactive⟩, a, ha, hexpires⟩
    obtain ⟨hk, hparties⟩ := h.mandates k m hm
    exact ⟨_, m.assetId, (m, a), loadCustody_eq_ok.2
      ⟨hm, hk, ha, rfl, rfl, hactive, hparties, h.attests hm ha, hexpires⟩⟩

/-- The custodian takes the mandate at `k` on. -/
inductive Instruction.Accepts (k : Pubkey) : Instruction → Prop
  | accept (custodian custodianFidAccount : Pubkey) :
      Accepts k (.acceptCustodyMandate custodian k custodianFidAccount)

/-- The custodian attests under the mandate at `k`. -/
inductive Instruction.AttestsTo (k : Pubkey) : Instruction → Prop
  | custody (custodian custodyAttestation : Pubkey) (documentHash attestationHash : ℕ)
      (validitySeconds : ℤ) : AttestsTo k (.attestCustody custodian k custodyAttestation
        documentHash attestationHash validitySeconds)
  | reserve (custodian custodyAttestation : Pubkey) (reserveRatioBps attestationHash : ℕ)
      (validitySeconds : ℤ) : AttestsTo k (.attestReserve custodian k custodyAttestation
        reserveRatioBps attestationHash validitySeconds)

/-- The instruction takes the mandate on while an attestation is valid, or attests. -/
def Instruction.Reopens (k : Pubkey) (L : Ledger) (i : Instruction) : Prop :=
  i.Accepts k ∧ Attested k L ∨ i.AttestsTo k

theorem Active.of_accounts (h : Active k L') (heq : L'.accounts k = L.accounts k) :
    Active k L := by
  obtain ⟨m, hm, hactive⟩ := h
  exact ⟨m, heq ▸ hm, hactive⟩

theorem Active.of_frame {S : List AccountKind} (h : Active k L') (hframe : Frame S L L')
    (hS : AccountKind.custodyMandate ∉ S) : Active k L := by
  obtain ⟨m, hm, hactive⟩ := h
  rw [← view_eq_some, hframe.view_eq (α := CustodyMandate) hS, view_eq_some] at hm
  exact ⟨m, hm, hactive⟩

theorem Active.frame {S : List AccountKind} (h : Active k L) (hframe : Frame S L L')
    (hS : AccountKind.custodyMandate ∉ S) : Active k L' := by
  obtain ⟨m, hm, hactive⟩ := h
  exact ⟨m, hframe.accounts_eq hS hm, hactive⟩

/-- Attestations only expire while nobody attests. -/
theorem Attested.of_frame {S : List AccountKind} (h : Attested k L') (hframe : Frame S L L')
    (hS : AccountKind.custodyAttestation ∉ S) (hnow : L.now ≤ L'.now) : Attested k L := by
  obtain ⟨a, ha, hexpires⟩ := h
  rw [← view_eq_some, hframe.view_eq (α := CustodyAttestation) hS, view_eq_some] at ha
  exact ⟨a, ha, by omega⟩

theorem Attested.frame {S : List AccountKind} (h : Attested k L) (hframe : Frame S L L')
    (hS : AccountKind.custodyAttestation ∉ S) (hnow : L'.now = L.now) : Attested k L' := by
  obtain ⟨a, ha, hexpires⟩ := h
  exact ⟨a, hframe.accounts_eq hS ha, by omega⟩

/-- An attestation opens the gate. -/
theorem process_attestsTo {i : Instruction} (hprocess : process L signers i = .ok L')
    (hi : i.AttestsTo k) : Active k L' ∧ Attested k L' := by
  have hframe := (process_frame hprocess).1
  cases hi with
  | custody custodian custodyAttestation documentHash attestationHash validitySeconds =>
      obtain ⟨m, a, hm, hactive, rfl, -, hexpires, ha, -, hnow, -⟩ := attestCustody_ok hprocess
      have hopen : Active k L := ⟨m, hm, hactive⟩
      exact ⟨hopen.frame hframe (by simp [Instruction.kind]), a, ha, by omega⟩
  | reserve custodian custodyAttestation reserveRatioBps attestationHash validitySeconds =>
      obtain ⟨m, old, a, hm, hactive, rfl, -, -, hexpires, rfl⟩ := attestReserve_ok hprocess
      have hopen : Active k L := ⟨m, hm, hactive⟩
      exact ⟨hopen.frame hframe (by simp [Instruction.kind]), a, put_accounts_self a, hexpires⟩

/-- An accepted mandate is active, and its attestation is as before. -/
theorem process_accepts {i : Instruction} (hprocess : process L signers i = .ok L')
    (hi : i.Accepts k) : Active k L' ∧ (Attested k L' ↔ Attested k L) := by
  obtain ⟨hframe, hnow⟩ := process_frame hprocess
  cases hi with
  | accept custodian custodianFidAccount =>
      obtain ⟨m, -, rfl⟩ := acceptCustodyMandate_ok hprocess
      refine ⟨⟨_, put_accounts_self _, rfl, rfl⟩, ?_, ?_⟩
      · exact fun h ↦ h.of_frame hframe (by simp [Instruction.kind]) hnow.ge
      · exact fun h ↦ h.frame hframe (by simp [Instruction.kind]) hnow

/-- Nothing but an acceptance makes a mandate active. -/
theorem process_active {i : Instruction} (hprocess : process L signers i = .ok L')
    (hi : ¬ i.Accepts k) (hactive : Active k L') : Active k L := by
  have hframe := (process_frame hprocess).1
  cases i with
  | initializeFactory | updateProgramIds | transferFactoryOwnership | approvePlatformAuthority
  | revokePlatformAuthority | attestCustody | attestReserve =>
      exact hactive.of_frame hframe (by simp [Instruction.kind])
  | createCustodyMandate accts assetId issuerFid custodian custodianFid =>
      obtain ⟨-, -, hm, hother⟩ := initRecord_ok (createCustodyMandate_ok hprocess).2
      have hk : k ≠ accts.custodyMandate := by
        rintro rfl
        obtain ⟨n, hn, hon, -⟩ := hactive
        obtain rfl := account_inj.1 (hn.symm.trans hm)
        cases hon
      exact hactive.of_accounts (hother k hk)
  | acceptCustodyMandate custodian custodyMandate custodianFidAccount =>
      obtain ⟨m, -, rfl⟩ := acceptCustodyMandate_ok hprocess
      have hk : k ≠ custodyMandate := by
        rintro rfl
        exact hi (.accept custodian custodianFidAccount)
      exact hactive.of_accounts (put_accounts_of_ne _ hk)
  | releaseCustodyMandate authority factoryState custodyMandate =>
      obtain ⟨m, -, rfl⟩ := releaseCustodyMandate_ok hprocess
      have hk : k ≠ custodyMandate := by
        rintro rfl
        obtain ⟨n, hn, hon, -⟩ := hactive
        obtain rfl := account_inj.1 (hn.symm.trans (put_accounts_self _))
        cases hon
      exact hactive.of_accounts (put_accounts_of_ne _ hk)

/-- Nothing but an attestation makes one valid. -/
theorem process_attested {i : Instruction} (hprocess : process L signers i = .ok L')
    (hi : ¬ i.AttestsTo k) (hattested : Attested k L') : Attested k L := by
  obtain ⟨hframe, hnow⟩ := process_frame hprocess
  cases i with
  | initializeFactory | updateProgramIds | transferFactoryOwnership | approvePlatformAuthority
  | revokePlatformAuthority | createCustodyMandate | acceptCustodyMandate
  | releaseCustodyMandate =>
      exact hattested.of_frame hframe (by simp [Instruction.kind]) hnow.ge
  | attestCustody custodian custodyMandate custodyAttestation documentHash attestationHash
      validitySeconds =>
      obtain ⟨-, -, -, -, rfl, -, -, -, hother, -, -⟩ := attestCustody_ok hprocess
      have hk : k ≠ custodyMandate := by
        rintro rfl
        exact hi (.custody custodian _ documentHash attestationHash validitySeconds)
      obtain ⟨a, ha, hexpires⟩ := hattested
      exact ⟨a, hother _ (mt custodyAttestationAddress_inj.1 hk) ▸ ha, by omega⟩
  | attestReserve custodian custodyMandate custodyAttestation reserveRatioBps attestationHash
      validitySeconds =>
      obtain ⟨-, -, new, -, -, rfl, -, -, -, rfl⟩ := attestReserve_ok hprocess
      have hk : k ≠ custodyMandate := by
        rintro rfl
        exact hi (.reserve custodian _ reserveRatioBps attestationHash validitySeconds)
      obtain ⟨a, ha, hexpires⟩ := hattested
      rw [put_accounts_of_ne _ (mt custodyAttestationAddress_inj.1 hk)] at ha
      exact ⟨a, ha, hexpires⟩

/-- From a closed gate an instruction leads to a closed gate exactly if it does not
reopen it. -/
theorem process_closed_iff {i : Instruction} (h : CustodyBooks L) (hclosed : ¬ GateAccepts k L)
    (hprocess : process L signers i = .ok L') : ¬ GateAccepts k L' ↔ ¬ i.Reopens k L := by
  rw [gateAccepts_iff h] at hclosed
  rw [gateAccepts_iff (h.process hprocess), not_iff_not]
  constructor
  · rintro ⟨hactive, hattested⟩
    by_cases hattests : i.AttestsTo k
    · exact .inr hattests
    · have hvalid := process_attested hprocess hattests hattested
      by_cases haccepts : i.Accepts k
      · exact .inl ⟨haccepts, hvalid⟩
      · exact absurd ⟨process_active hprocess haccepts hactive, hvalid⟩ hclosed
  · rintro (⟨haccepts, hvalid⟩ | hattests)
    · obtain ⟨hactive, hsame⟩ := process_accepts hprocess haccepts
      exact ⟨hactive, hsame.2 hvalid⟩
    · exact process_attestsTo hprocess hattests

/-! ## The end of custody -/

/-- The owner of the platform releases the mandate at `k`. -/
inductive Label.Releases (k : Pubkey) (L : Ledger) : Label → Prop
  | release (signers : List Pubkey) (factoryState : Pubkey) (state : FactoryState) :
      L.accounts factoryState = account state →
        Releases k L (.instruction signers (.releaseCustodyMandate state.owner factoryState k))

/-- The owner of the platform revokes the role of the custodian of the mandate at `k`. -/
inductive Label.Revokes (k : Pubkey) (L : Ledger) : Label → Prop
  | revoke (signers : List Pubkey) (admin factoryState platformAuthority : Pubkey)
      (m : CustodyMandate) : L.accounts k = account m →
        Revokes k L (.instruction signers (.revokePlatformAuthority admin factoryState
          platformAuthority m.custodianFid topicCustodianAuthority))

/-- Neither the owner of the platform nor the issuer of the mandate signs. -/
def Label.Unbacked (k : Pubkey) (L : Ledger) : Label → Prop
  | .instruction signers _ =>
      (∀ state : FactoryState, L.accounts factoryStateAddress = account state →
        state.owner ∉ signers) ∧
        ∀ m : CustodyMandate, L.accounts k = account m → m.issuer ∉ signers
  | .environment => True

def Label.Reopens (k : Pubkey) (L : Ledger) : Label → Prop
  | .instruction _ i => i.Reopens k L
  | .environment => False

/-- The steps that are left to the custodian and to strangers. -/
def UnbackedStep (k : Pubkey) : Ledger → Label → Ledger → Prop :=
  restrict Step fun L l _ ↦ l.Unbacked k L

theorem step_closed_iff (h : CustodyBooks L) (hclosed : ¬ GateAccepts k L) (hstep : Step L l L') :
    ¬ GateAccepts k L' ↔ ¬ l.Reopens k L := by
  cases hstep with
  | instruction signers i hprocess => exact process_closed_iff h hclosed hprocess
  | environment S hframe hS hnow =>
      have hmandate : AccountKind.custodyMandate ∉ S := hS _ (by decide)
      have hattestation : AccountKind.custodyAttestation ∉ S := hS _ (by decide)
      refine iff_of_true ?_ not_false
      rw [gateAccepts_iff (h.of_frame hframe hmandate hattestation)]
      rintro ⟨hactive, hattested⟩
      exact hclosed ((gateAccepts_iff h).2
        ⟨hactive.of_frame hframe hmandate, hattested.of_frame hframe hattestation hnow⟩)

/-- Right after the end the gate is open exactly if a revocation found it open. -/
theorem gate_after_end (h : CustodyBooks L) (hstep : Step L l L')
    (hends : l.Releases k L ∨ l.Revokes k L) :
    GateAccepts k L' ↔ l.Revokes k L ∧ Active k L ∧ Attested k L := by
  have hbooks := h.step hstep
  rw [gateAccepts_iff hbooks]
  rcases hends with ⟨signers, factoryState, state, -⟩ |
    ⟨signers, admin, factoryState, platformAuthority, m, hm⟩
  · cases hstep with
    | instruction _ _ hprocess =>
        obtain ⟨m, -, rfl⟩ := releaseCustodyMandate_ok hprocess
        refine iff_of_false ?_ (fun hrevokes ↦ nomatch hrevokes.1)
        rintro ⟨⟨n, hn, hon, -⟩, -⟩
        obtain rfl := account_inj.1 (hn.symm.trans (put_accounts_self _))
        cases hon
  · cases hstep with
    | instruction _ _ hprocess =>
        obtain ⟨hframe, hnow⟩ := process_frame hprocess
        constructor
        · rintro ⟨hactive, hattested⟩
          exact ⟨.revoke signers admin factoryState platformAuthority m hm,
            hactive.of_frame hframe (by simp [Instruction.kind]),
            hattested.of_frame hframe (by simp [Instruction.kind]) hnow.ge⟩
        · rintro ⟨-, hactive, hattested⟩
          exact ⟨hactive.frame hframe (by simp [Instruction.kind]),
            hattested.frame hframe (by simp [Instruction.kind]) hnow⟩

/-- After the end of custody the gate refuses the mandate throughout a run of the
custodian and strangers exactly if it was not left open by a revocation and no
instruction of this run reopens it. -/
theorem gate_closed_throughout_iff {L₀ L₁ : Ledger} {history : List Label}
    {path : List (Label × Ledger)} (hstart : NoCustody L₀) (hhistory : Run Step L₀ history L)
    (hstep : Step L l L₁) (hends : l.Releases k L ∨ l.Revokes k L)
    (hpath : Trace (UnbackedStep k) L₁ path) :
    Trace.Throughout (fun M ↦ ¬ GateAccepts k M) L₁ path ↔
      ¬ (l.Revokes k L ∧ Active k L ∧ Attested k L) ∧
        Trace.AllSteps (fun M l _ ↦ ¬ l.Reopens k M) L₁ path := by
  have hbooks : CustodyBooks L := hhistory.invariant (fun _ _ _ h hs ↦ h.step hs) hstart.books
  rw [← gate_after_end hbooks hstep hends]
  refine hpath.throughout_iff (I := CustodyBooks) ?_ ?_ (hbooks.step hstep)
  · intro M l M' h hs
    exact h.step hs.1
  · intro M l M' h hclosed hs
    exact step_closed_iff h hclosed hs.1

/-! ## A mandate that is taken on again -/

def platformOwner : Pubkey := .address 1

def assetIssuer : Pubkey := .address 2

def assetCustodian : Pubkey := .address 3

def assetMandate : Pubkey := custodyMandateAddress 7

def partyFid (owner : Pubkey) (isIssuer : Bool) : FidAccount where
  owner := owner
  managementKey := owner
  signerKey := owner
  claimCount := 0
  isIssuer := isIssuer
  country := if isIssuer then 0 else 840

/-- A platform with an issuer and a custodian. -/
def custodyLedger : Ledger :=
  .ofRecords [(factoryStateAddress, account
      { owner := platformOwner
        tokenProgramId := .program .fracksToken
        fidProgramId := .program .fracksFid
        irpProgramId := .program .fracksIrp
        irsProgramId := .program .fracksIrs
        tirProgramId := .program .fracksTir
        ctrProgramId := .program .fracksCtr
        complianceProgramId := .program .fracksCompliance
        deploymentCount := 0 : FactoryState }),
    (Fid.fidAddress assetIssuer, account (partyFid assetIssuer true)),
    (Fid.fidAddress assetCustodian, account (partyFid assetCustodian false))]

theorem custodyLedger_noCustody : NoCustody custodyLedger := by
  have hkinds : ∀ k, (custodyLedger.accounts k).kind ≠ .custodyMandate ∧
      (custodyLedger.accounts k).kind ≠ .custodyAttestation := by
    refine ofRecords_forall (P := fun _ acc ↦ acc.kind ≠ .custodyMandate ∧
      acc.kind ≠ .custodyAttestation) ?_ fun _ ↦ by decide
    simp [AccountType.kind]
  constructor
  · intro k
    by_contra hne
    obtain ⟨m, hm⟩ := Option.ne_none_iff_exists'.1 hne
    exact (hkinds k).1 (view_eq_some.1 hm ▸ kind_account m)
  · intro k
    by_contra hne
    obtain ⟨a, ha⟩ := Option.ne_none_iff_exists'.1 hne
    exact (hkinds k).2 (view_eq_some.1 ha ▸ kind_account a)

/-- The custodian gets its role and the mandate, takes it on and attests. -/
def custodyHistory : List Label :=
  [.instruction [platformOwner] (.approvePlatformAuthority platformOwner factoryStateAddress
      (platformAuthorityAddress (Fid.fidAddress assetCustodian) topicCustodianAuthority)
      (Fid.fidAddress assetCustodian) topicCustodianAuthority),
    .instruction [assetIssuer] (.createCustodyMandate
      { authority := assetIssuer
        factoryState := factoryStateAddress
        issuer := assetIssuer
        issuerFidAccount := Fid.fidAddress assetIssuer
        custodianFidAccount := Fid.fidAddress assetCustodian
        custodianAuthority :=
          platformAuthorityAddress (Fid.fidAddress assetCustodian) topicCustodianAuthority
        custodyMandate := assetMandate } 7 (Fid.fidAddress assetIssuer) assetCustodian
      (Fid.fidAddress assetCustodian)),
    .instruction [assetCustodian] (.acceptCustodyMandate assetCustodian assetMandate
      (Fid.fidAddress assetCustodian)),
    .instruction [assetCustodian] (.attestCustody assetCustodian assetMandate
      (custodyAttestationAddress assetMandate) 0 0 3600)]

def ownerRelease : Label :=
  .instruction [platformOwner] (.releaseCustodyMandate platformOwner factoryStateAddress
    assetMandate)

def secondAcceptance : Label :=
  .instruction [assetCustodian] (.acceptCustodyMandate assetCustodian assetMandate
    (Fid.fidAddress assetCustodian))

/-- The clock an hour later. -/
def hourLater (L : Ledger) : Ledger := { L with now := L.now + 3600 }

/-- The custodian may take the released mandate on at once, and also when its attestation has
expired. -/
theorem custodyHistory_run : ∃ L L₁ L₂ L₃ : Ledger, Run Step custodyLedger custodyHistory L ∧
    Step L ownerRelease L₁ ∧ ownerRelease.Releases assetMandate L ∧
      UnbackedStep assetMandate L₁ secondAcceptance L₂ ∧ GateAccepts assetMandate L₂ ∧
        UnbackedStep assetMandate (hourLater L₁) secondAcceptance L₃ ∧
          ¬ Attested assetMandate (hourLater L₁) := by
  have hhistory : ∃ L, Run Step custodyLedger custodyHistory L ∧
      ∃ L₁, process L [platformOwner] (.releaseCustodyMandate platformOwner factoryStateAddress
        assetMandate) = .ok L₁ ∧
      ∃ L₂, process L₁ [assetCustodian] (.acceptCustodyMandate assetCustodian assetMandate
        (Fid.fidAddress assetCustodian)) = .ok L₂ ∧
      ∃ L₃, process (hourLater L₁) [assetCustodian] (.acceptCustodyMandate assetCustodian
        assetMandate (Fid.fidAddress assetCustodian)) = .ok L₃ ∧
      (∃ state : FactoryState, L.accounts factoryStateAddress = account state ∧
        state.owner = platformOwner) ∧
      (∃ state : FactoryState, L₁.accounts factoryStateAddress = account state ∧
        state.owner = platformOwner) ∧
      (∃ m : CustodyMandate, L₁.accounts assetMandate = account m ∧ m.issuer = assetIssuer) ∧
      (∃ a : CustodyAttestation, L₁.accounts (custodyAttestationAddress assetMandate) =
        account a ∧ a.expiresAt = L₁.now + 3600) ∧
      ∃ custody, loadCustody L₂ assetMandate (custodyAttestationAddress assetMandate) 7 =
        .ok custody :=
    ⟨_, .cons (.instruction _ _ rfl) (.cons (.instruction _ _ rfl) (.cons (.instruction _ _ rfl)
      (.cons (.instruction _ _ rfl) (.nil _)))), _, rfl, _, rfl, _, rfl, ⟨_, rfl, rfl⟩,
      ⟨_, rfl, rfl⟩, ⟨_, rfl, rfl⟩, ⟨_, rfl, rfl⟩, _, rfl⟩
  obtain ⟨L, hrun, L₁, hrelease, L₂, haccept, L₃, hlate, ⟨state, hstate, howner⟩,
    ⟨state₁, hstate₁, howner₁⟩, ⟨m, hm, hissuer⟩, ⟨a, ha, hexpires⟩, custody, hgate⟩ := hhistory
  have hreleases : ownerRelease.Releases assetMandate L := by
    have h := Label.Releases.release (k := assetMandate) [platformOwner] _ state hstate
    rwa [howner] at h
  have hunbacked : ∀ M : Ledger, M.accounts = L₁.accounts →
      secondAcceptance.Unbacked assetMandate M := by
    intro M hM
    constructor
    · intro state' hstate'
      obtain rfl := account_inj.1 ((hM ▸ hstate').symm.trans hstate₁)
      rw [howner₁]
      decide
    · intro m' hm'
      obtain rfl := account_inj.1 ((hM ▸ hm').symm.trans hm)
      rw [hissuer]
      decide
  refine ⟨L, L₁, L₂, L₃, hrun, .instruction _ _ hrelease, hreleases,
    ⟨.instruction _ _ haccept, hunbacked L₁ rfl⟩, ⟨_, _, custody, hgate⟩,
    ⟨.instruction _ _ hlate, hunbacked _ rfl⟩, ?_⟩
  rintro ⟨b, hb, hvalid⟩
  obtain rfl : b = a := account_inj.1 (hb.symm.trans ha)
  rw [hexpires] at hvalid
  exact absurd hvalid (lt_irrefl _)

/-- A released mandate that its custodian takes on again passes the gate. -/
theorem released_mandate_accepted : ¬ ∀ (k : Pubkey) (L₀ L L₁ : Ledger) (history : List Label)
    (path : List (Label × Ledger)) (l : Label), NoCustody L₀ → Run Step L₀ history L →
    Step L l L₁ → l.Releases k L ∨ l.Revokes k L → Trace (UnbackedStep k) L₁ path →
      Trace.Throughout (fun M ↦ ¬ GateAccepts k M) L₁ path := by
  intro hclaim
  obtain ⟨L, L₁, L₂, -, hrun, hrelease, hreleases, haccept, hgate, -, -⟩ := custodyHistory_run
  have hclosed := hclaim _ _ _ _ _ _ _ custodyLedger_noCustody hrun hrelease (.inl hreleases)
    (.single haccept)
  exact hclosed.2 _ (List.mem_singleton_self _) hgate

/-- Once the attestation has expired, taking the released mandate on again opens nothing. -/
theorem released_mandate_closed : ∃ L L₁ L₃ : Ledger,
    Run Step custodyLedger custodyHistory L ∧ Step L ownerRelease L₁ ∧
      Trace (UnbackedStep assetMandate) L₁
        [(.environment, hourLater L₁), (secondAcceptance, L₃)] ∧
      Trace.Throughout (fun M ↦ ¬ GateAccepts assetMandate M) L₁
        [(.environment, hourLater L₁), (secondAcceptance, L₃)] := by
  obtain ⟨L, L₁, -, L₃, hrun, hrelease, hreleases, -, -, hlate, hexpired⟩ := custodyHistory_run
  have hhour : UnbackedStep assetMandate L₁ .environment (hourLater L₁) := by
    refine ⟨.environment [] (.of_accounts_eq rfl) (fun _ _ ↦ List.not_mem_nil) ?_, trivial⟩
    show L₁.now ≤ L₁.now + 3600
    omega
  have hpath : Trace (UnbackedStep assetMandate) L₁
      [(.environment, hourLater L₁), (secondAcceptance, L₃)] := .cons hhour (.single hlate)
  refine ⟨L, L₁, L₃, hrun, hrelease, hpath, ?_⟩
  refine (gate_closed_throughout_iff custodyLedger_noCustody hrun hrelease (.inl hreleases)
    hpath).2 ⟨fun hopen ↦ (nomatch hopen.1), not_false, ?_, trivial⟩
  rintro (⟨-, hattested⟩ | hattests)
  · exact hexpired hattested
  · exact nomatch hattests

end Fracks.Factory
