import Fracks.Binding
import Fracks.BookedCounters
import Fracks.Postings
import Fracks.SupportRecords
import Fracks.Token.SupportAccounts

/-!
# Investor caps over runs

The number of holders and the count of a country are compared with their caps
when a transfer is approved and advanced when it is executed, with any number of
other approvals executed in between.  A mint is checked and counted in one
instruction.
-/

namespace Fracks

open Checked AccountType Ledger TokenHook HookedModule Compliance Runs

variable {L L' L₁ L₂ : Ledger} {T X M N k : Pubkey} {signers : List Pubkey} {i : Instruction}
  {m : InvestorCountryCapModule} {cap : ℕ} {state : ComplianceState}

/-! ## The invariants -/

/-- The investor cap at `M` is at `cap`, is served by the router and counts no
more holders. -/
def HoldersWithin (T M : Pubkey) (cap : ℕ) (L : Ledger) : Prop :=
  ∃ c : MaxInvestorsModule, L.accounts M = account c ∧
    c.hookAuthority = complianceAddress T ∧ c.maxInvestors = cap ∧ c.holderCount ≤ cap

/-- No count of the country cap `m` at `N` is above the cap of its country. -/
def CountsWithin (N : Pubkey) (m : InvestorCountryCapModule) (L : Ledger) : Prop :=
  ∀ (country cap : ℕ) (c : CountryInvestorCount), m.capOf country = some cap →
    L.accounts (countKey N country) = account c → c.module = N → c.count ≤ cap

theorem HoldersWithin.of_frame {S : List AccountKind} (hL : HoldersWithin T M cap L)
    (h : Frame S L L') (hS : AccountKind.maxInvestorsModule ∉ S) : HoldersWithin T M cap L' := by
  obtain ⟨c, hc, hrest⟩ := hL
  exact ⟨c, h.accounts_eq hS hc, hrest⟩

theorem HoldersWithin.of_same (hL : HoldersWithin T M cap L)
    (h : ∀ c : MaxInvestorsModule, L.accounts M = account c →
      c.hookAuthority = complianceAddress T → L'.accounts M = L.accounts M) :
    HoldersWithin T M cap L' := by
  obtain ⟨c, hc, hserved, hrest⟩ := hL
  exact ⟨c, (h c hc hserved).trans hc, hserved, hrest⟩

theorem CountsWithin.of_frame {S : List AccountKind} (hL : CountsWithin N m L)
    (h : Frame S L L') (hS : AccountKind.countryInvestorCount ∉ S) : CountsWithin N m L' := by
  intro country cap c hcap hc hmodule
  rw [← view_eq_some, h.view_eq hS, view_eq_some] at hc
  exact hL country cap c hcap hc hmodule

/-- New counts are at zero. -/
theorem CountsWithin.of_untouched (hL : CountsWithin N m L)
    (hopened : ∀ k, (L'.accounts k).counterModule k = some N → KnownOrOpened L L' k N)
    (hsame : ∀ k, (L.accounts k).counterModule k = some N → L'.accounts k = L.accounts k) :
    CountsWithin N m L' := by
  intro country cap c hcap hc hmodule
  have hcounter : (L'.accounts (countKey N country)).counterModule (countKey N country) =
      some N := by
    rw [hc, namesModule_count, hmodule]
  rcases hopened _ hcounter with hknown | hzero
  · exact hL country cap c hcap ((hsame _ hknown).symm.trans hc) hmodule
  · have hcount : c.count = 0 := by
      rw [hc] at hzero
      exact hzero
    omega

/-! ## Burns -/

theorem HoldersWithin.burned {n : ℕ} (hL : HoldersWithin T M cap L) (hb : BoundAt T M L state)
    (h : Booked X (complianceAddress T) (.burned k n) L L') : HoldersWithin T M cap L' := by
  obtain ⟨c, hc, hserved, hcap, hle⟩ := hL
  obtain ⟨count, hM, hcount⟩ := h.burned_maxInvestors hb.loaded hb.nodup hb.bound hc
  exact ⟨_, hM, hserved, hcap, by simp only; omega⟩

theorem CountsWithin.burned {n : ℕ} (hL : CountsWithin N m L) (hb : BoundAt T N L state)
    (hN : L.accounts N = account m)
    (h : Booked X (complianceAddress T) (.burned k n) L L') : CountsWithin N m L' := by
  obtain ⟨L₁, L₂, hbefore, ⟨_, _, hdestroyed⟩, hafter⟩ := h.posted
  have hL₁ : CountsWithin N m L₁ := hL.of_frame hbefore (by decide)
  refine CountsWithin.of_frame (fun country cap c' hcap hc' hmodule ↦ ?_) hafter (by decide)
  obtain ⟨c, hc, hcmodule, -, hcount⟩ := destroyed_count hdestroyed
    (hbefore.accounts_eq (by decide) hb.loaded) hb.nodup hb.bound
    (hbefore.accounts_eq (by decide) hN) hc' hmodule
  have hle := hL₁ country cap c hcap hc hcmodule
  omega

/-! ## Transfers -/

/-- The transfer fills an empty account and does not empty another. -/
def AddsHolder (a : TransferApproval) (n : ℕ) : Prop :=
  receiverEnters n (a.toBalance + n) ∧ ¬ senderExits n (a.fromBalance - n)

/-- The transfer fills an empty account and does not empty another of the same
country. -/
def AddsResident (a : TransferApproval) (n : ℕ) : Prop :=
  receiverEnters n (a.toBalance + n) ∧
    ¬ (a.fromCountry = a.toCountry ∧ senderExits n (a.fromBalance - n))

theorem HoldersWithin.uses {source destination authority : Pubkey} {n : ℕ} {a : TransferApproval}
    (hL : HoldersWithin T M cap L) (hb : BoundAt T M L state)
    (h : Uses T L L' source destination authority n k a)
    (hroom : AddsHolder a n → ∀ c : MaxInvestorsModule, L.accounts M = account c →
      c.holderCount < c.maxInvestors) : HoldersWithin T M cap L' := by
  obtain ⟨c, hc, hserved, hcap, hle⟩ := hL
  obtain ⟨count, hM, hcount⟩ := h.booked.moved_maxInvestors hb.loaded hb.nodup hb.bound hc
  rw [← h.fromBalance, ← h.toBalance] at hcount
  refine ⟨_, hM, hserved, hcap, ?_⟩
  by_cases hadds : AddsHolder a n
  · have hlt := hroom hadds c hc
    obtain ⟨henters, hstays⟩ := hadds
    rw [if_pos henters, if_neg hstays] at hcount
    simp only
    omega
  · by_cases henters : receiverEnters n (a.toBalance + n)
    · have hexits : senderExits n (a.fromBalance - n) := by
        by_contra hstays
        exact hadds ⟨henters, hstays⟩
      rw [if_pos henters, if_pos hexits] at hcount
      simp only
      omega
    · rw [if_neg henters] at hcount
      simp only
      omega

theorem CountsWithin.uses {source destination authority : Pubkey} {n : ℕ} {a : TransferApproval}
    (hL : CountsWithin N m L) (hb : BoundAt T N L state) (hN : L.accounts N = account m)
    (h : Uses T L L' source destination authority n k a)
    (hroom : AddsResident a n → ∀ cap, m.capOf a.toCountry = some cap →
      Token.storedCount L N a.toCountry < cap) : CountsWithin N m L' := by
  obtain ⟨L₁, L₂, remaining, hframe, -, hposted, hafter⟩ := h.posted
  rw [← h.fromBalance, ← h.toBalance] at hposted
  refine CountsWithin.of_frame (fun country cap c' hcap hc' hmodule ↦ ?_) hafter (by decide)
  obtain ⟨c, hc₁, hcmodule, -, hnamed, hcount⟩ := transferred_count hposted
    (hframe.accounts_eq (by decide) hb.loaded) hb.nodup hb.bound
    (hframe.accounts_eq (by decide) hN) hc' hmodule
  have hc : L.accounts (countKey N country) = account c := by
    rwa [← view_eq_some, ← hframe.view_eq (by decide), view_eq_some]
  have hle := hL country cap c hcap hc hcmodule
  by_cases hgrows : countKey N country = countKey N a.toCountry ∧ AddsResident a n
  · obtain ⟨hkey, hadds⟩ := hgrows
    obtain rfl := countAddress_inj.1 hkey
    have hlt := hroom hadds cap hcap
    have hrecord : Token.countRecord L N a.toCountry = some c := by
      simp [Token.countRecord, Option.filter_eq_some_iff, view_eq_some, hc, hcmodule, hnamed rfl]
    rw [Token.storedCount_eq hN, hrecord, Option.elim_some] at hlt
    split at hcount <;> split at hcount <;> omega
  · rw [if_neg (fun hgrow : _ ∧ _ ∧ _ ↦ hgrows hgrow)] at hcount
    omega

section Process

variable [Borsh]

/-! ## Mints -/

/-- What an issue of `T` has asked a bound module. -/
theorem Token.Issue.checked {ts : TokenState} {accts : Token.ReceiverAccounts}
    {amount country : ℕ} {d : TokenAccount} (h : Token.Issue L L' ts accts amount country d L₁ L₂)
    (hT : Anchored T L) (hts : ts.tokenMint = T) (hb : BoundAt T M L state)
    (hrunning : state.modulesPaused = false) :
    accts.complianceState = complianceAddress T ∧
      ¬ Token.ModuleRefuses L accts.remaining .default amount d.amount 0 country M ∧
        ¬ Token.LimitShown L accts.remaining .default amount d.amount country M := by
  obtain ⟨hkey, -⟩ := Token.evaluateCompliance_ok h.complies
  have hC : accts.complianceState = complianceAddress T :=
    hkey.symm.trans (hT.compliance (hts ▸ h.tokenStateAt)).2
  have hloaded : Token.deserializeLocal ComplianceState L accts.complianceState = .ok state := by
    simp [Token.deserializeLocal, hC, hb.loaded, Borsh.decodeView_encode]
  obtain ⟨-, hmodules, hlimits⟩ := (Token.evaluateCompliance_eq_ok hloaded hrunning).1 h.complies
  exact ⟨hC, hmodules M hb.bound, hlimits M hb.bound⟩

theorem HoldersWithin.issued {ts : TokenState} {accts : Token.ReceiverAccounts}
    {amount country : ℕ} {d : TokenAccount} (hL : HoldersWithin T M cap L)
    (h : Token.Issue L L' ts accts amount country d L₁ L₂) (hT : Anchored T L)
    (hts : ts.tokenMint = T) (hb : BoundAt T M L state) (hrunning : state.modulesPaused = false)
    (hbooked : Booked T (complianceAddress T) (.minted accts.destinationTokenAccount amount) L L') :
    HoldersWithin T M cap L' := by
  obtain ⟨c, hc, hserved, hcap, hle⟩ := hL
  obtain ⟨-, hadmitted, -⟩ := h.checked hT hts hb hrunning
  have hM := hbooked.minted_maxInvestors hb.loaded hrunning hb.nodup hb.bound hc
  have hbalance : d.amount = balance L T accts.destinationTokenAccount := by
    rw [balance_of_account h.destinationAt, if_pos (h.destinationMint.trans hts)]
  simp only [Token.ModuleRefuses, hc, account_data, encode, not_or, hbalance] at hadmitted
  refine ⟨_, hM, hserved, hcap, ?_⟩
  simp only
  split
  · rename_i henters
    obtain ⟨hpos, hafter⟩ := henters
    have hroom : ¬ c.maxInvestors ≤ c.holderCount :=
      fun hfull ↦ hadmitted.2 ⟨by omega, hpos, hfull⟩
    omega
  · exact hle

theorem CountsWithin.issued {ts : TokenState} {accts : Token.ReceiverAccounts}
    {amount country : ℕ} {d : TokenAccount} (hL : CountsWithin N m L)
    (hN : L.accounts N = account m)
    (h : Token.Issue L L' ts accts amount country d L₁ L₂) (hT : Anchored T L)
    (hts : ts.tokenMint = T) (hb : BoundAt T N L state) (hrunning : state.modulesPaused = false) :
    CountsWithin N m L' := by
  obtain ⟨hC, -, hlimit⟩ := h.checked hT hts hb hrunning
  obtain ⟨-, -, hprogram⟩ := h.compliance (hC ▸ hb.loaded)
  obtain ⟨-, ⟨-, hcreated⟩ | ⟨hforeign, -⟩⟩ := invokeCompliance_ok h.booked
  · obtain ⟨_, hminted⟩ := h.minted
    rw [hC] at hcreated
    refine CountsWithin.of_frame (fun other cap c' hcap hc' hmodule ↦ ?_)
      (Token2022.frame_mintTo hminted) (by decide)
    obtain ⟨c, hc₁, hcmodule, -, hnamed, hcount⟩ := created_count hcreated
      (h.paid.accounts_eq (by decide) hb.loaded) hrunning hb.nodup hb.bound
      (h.paid.accounts_eq (by decide) hN) hc' hmodule
    have hc : L.accounts (countKey N other) = account c := by
      rwa [← view_eq_some, ← h.paid.view_eq (by decide), view_eq_some]
    have hle := hL other cap c hcap hc hcmodule
    by_cases hgrows : countKey N other = countKey N country ∧
        receiverEnters amount (d.amount + amount)
    · obtain ⟨hkey, hpos, hafter⟩ := hgrows
      obtain rfl := countAddress_inj.1 hkey
      obtain ⟨hcountry, hlisted⟩ := hnamed rfl
      have hrecord : Token.countRecord L N other = some c := by
        simp [Token.countRecord, Option.filter_eq_some_iff, view_eq_some, hc, hcmodule, hcountry]
      have howner : (L.accounts N).owner = .program .modCountryCap := by
        rw [hN]
        rfl
      have hshown : Token.shownCount L accts.remaining N other = c.count := by
        rw [Token.shownCount, howner, if_pos hlisted, Token.storedCount_eq hN, hrecord]
        rfl
      simp only [Token.LimitShown, hN, account_data, encode, hshown] at hlimit
      have hroom : ¬ cap ≤ c.count := fun hfull ↦ hlimit ⟨by omega, hpos, cap, hcap, hfull⟩
      split at hcount <;> omega
    · rw [if_neg hgrows] at hcount
      omega
  · exact absurd hprogram hforeign

end Process

/-! ## Steps -/

/-- The caps at `M` and `N` are bound to `T` and in force. -/
structure CapsBound (T M N : Pubkey) (m : InvestorCountryCapModule) (L : Ledger) : Prop where
  anchored : Anchored T L
  bound : ∃ state, BoundAt T M L state ∧ BoundAt T N L state ∧ state.modulesPaused = false
  countries : L.accounts N = account m
  served : m.hookAuthority = complianceAddress T

/-- Both caps hold. -/
structure CapsHeld (T M N : Pubkey) (cap : ℕ) (m : InvestorCountryCapModule) (L : Ledger) :
    Prop where
  holders : HoldersWithin T M cap L
  countries : CountsWithin N m L

/-- The caps are bound and never paused, their counters are moved by the tokens
alone, and the controller moves no tokens of `T`. -/
structure InvestorsPermitted (T M N : Pubkey) (i : Instruction) : Prop where
  anchor : KeepsAnchor T i
  holdersBinding : KeepsBinding T M i
  countriesBinding : KeepsBinding T N i
  running : ¬ i.Pauses T
  holdersCounter : CountersLeft T M i
  countriesCounter : CountersLeft T N i
  unforced : ∀ operator fromPartialFreeze accts source destination amount fromBalance toBalance,
    i = .token (.forcedTransfer operator fromPartialFreeze accts source destination amount
      fromBalance toBalance) → operator.tokenState ≠ Token.tokenStateAddress T
  unrecovered : ∀ operator irsProgram accts lostWallet newWallet amount,
    i = .token (.recovery operator irsProgram accts lostWallet newWallet amount) →
      operator.tokenState ≠ Token.tokenStateAddress T

/-- The caps admit a transfer once more when it is executed: there is room for the
holder and for the resident it adds. -/
def CapsAdmit (T M N : Pubkey) (m : InvestorCountryCapModule) (L : Ledger) : Instruction → Prop
  | .token2022 (.transferChecked source mint destination authority _ n _) =>
      mint = T → ∀ a, PendingAt T L (approvalAddress source destination authority) a →
        (AddsHolder a n → ∀ c : MaxInvestorsModule, L.accounts M = account c →
          c.holderCount < c.maxInvestors) ∧
        (AddsResident a n → ∀ cap, m.capOf a.toCountry = some cap →
          Token.storedCount L N a.toCountry < cap)
  | _ => True

theorem CapsBound.hookAuthority (hL : CapsBound T M N m L) :
    (L.accounts N).data.hookAuthority = some (complianceAddress T) := by
  rw [hL.countries, ← hL.served]
  rfl

/-- The counters of both modules stay. -/
theorem CapsHeld.of_untouched (hL : CapsBound T M N m L) (hheld : CapsHeld T M N cap m L)
    (hopened : ∀ k, (L'.accounts k).counterModule k = some N → KnownOrOpened L L' k N)
    (hholders : ∀ c : MaxInvestorsModule, L.accounts M = account c →
      (L.accounts M).data.hookAuthority = some (complianceAddress T) →
        (L.accounts M).counterModule M = some M → L'.accounts M = L.accounts M)
    (hcountries : ∀ k, (L.accounts N).data.hookAuthority = some (complianceAddress T) →
      (L.accounts k).counterModule k = some N → L'.accounts k = L.accounts k) :
    CapsHeld T M N cap m L' where
  holders := hheld.holders.of_same fun c hc hserved ↦
    hholders c hc (by rw [hc, ← hserved]; rfl) (by rw [hc]; rfl)
  countries := hheld.countries.of_untouched hopened fun k hknown ↦
    hcountries k hL.hookAuthority hknown

section Process

variable [Borsh]

theorem process_capsBound (h : process L signers i = .ok L')
    (hexternal : ∀ k ∈ signers, k.External) (hpermitted : InvestorsPermitted T M N i.core)
    (hL : CapsBound T M N m L) : CapsBound T M N m L' := by
  obtain ⟨state, hboundM, hboundN, hrunning⟩ := hL.bound
  obtain ⟨stateM, hreboundM⟩ := process_rebound h hpermitted.holdersBinding hboundM
  obtain ⟨stateN, hreboundN⟩ := process_rebound h hpermitted.countriesBinding hboundN
  -- both are the one compliance state of the token
  obtain rfl := account_inj.1 (hreboundM.bound.loaded.symm.trans hreboundN.bound.loaded)
  exact ⟨process_anchored h hexternal hpermitted.anchor hL.anchored,
    ⟨stateM, hreboundM.bound, hreboundN.bound,
      (hreboundM.paused hpermitted.running).trans hrunning⟩,
    process_settings h (by decide) hpermitted.countriesCounter hL.countries, hL.served⟩

/-- Movements of tokens keep the caps when executions of pending approvals are
admitted once more. -/
theorem CapsHeld.posts (hheld : CapsHeld T M N cap m L) (hL : CapsBound T M N m L)
    (h : Posts T i L L') (hmoves : i.moves = true)
    (hopened : ∀ k, (L'.accounts k).counterModule k = some N → KnownOrOpened L L' k N)
    (hpermitted : InvestorsPermitted T M N i) (hadmits : CapsAdmit T M N m L i) :
    CapsHeld T M N cap m L' := by
  obtain ⟨state, hboundM, hboundN, hrunning⟩ := hL.bound
  cases h with
  | issued L₁ L₂ ts accts amount country d hissue hts hbooked =>
      exact ⟨hheld.holders.issued hissue hL.anchored hts hboundM hrunning hbooked,
        hheld.countries.issued hL.countries hissue hL.anchored hts hboundN hrunning⟩
  | redeemed L₁ ts accts amount country s hredeemed hts haccts hbooked =>
      exact ⟨hheld.holders.burned hboundM hbooked,
        hheld.countries.burned hboundN hL.countries hbooked⟩
  | executed source destination authority additional n decimals k a hi huses =>
      subst hi
      obtain ⟨hholders, hcountries⟩ := hadmits rfl a (huses.key ▸ huses.pending)
      exact ⟨hheld.holders.uses hboundM huses hholders,
        hheld.countries.uses hboundN hL.countries huses hcountries⟩
  | controlled L₁ L₂ source destination authority n k a hframe hnow hgranted huses hreleased =>
      cases hgranted with
      | transfer => exact nomatch hmoves
      | forcedTransfer _ _ _ _ _ _ _ _ _ _ _ _ _ _ _ _ happroved hcomplies hstate =>
          exact absurd hstate (hpermitted.unforced _ _ _ _ _ _ _ _ rfl)
      | recovery _ _ _ _ _ _ _ _ _ _ _ _ _ _ happroved hstate =>
          exact absurd hstate (hpermitted.unrecovered _ _ _ _ _ _ rfl)
  | aside huntouched =>
      exact .of_untouched hL hheld hopened
        (fun _ _ hserved hknown ↦ huntouched.counters M M hknown hserved)
        fun k hserved hknown ↦ huntouched.counters k N hknown hserved

theorem process_capsHeld (h : process L signers i = .ok L')
    (hpermitted : InvestorsPermitted T M N i.core) (hmismoves : ¬ i.core.Mismoves T L)
    (hadmits : CapsAdmit T M N m L i.core) (hL : CapsBound T M N m L)
    (hheld : CapsHeld T M N cap m L) : CapsHeld T M N cap m L' := by
  obtain ⟨state, hboundM, hboundN, hrunning⟩ := hL.bound
  have hflags := hL.anchored.wellFormed.flags
  have hopened : ∀ k, (L'.accounts k).counterModule k = some N → KnownOrOpened L L' k N :=
    fun k hcounter ↦ process_opened h hflags hcounter
  cases hmoves : i.core.moves with
  | false =>
      refine .of_untouched hL hheld hopened (fun c hc hserved hknown ↦ ?_)
        fun k hserved hknown ↦ ?_
      · exact process_countersLeft h hflags hmoves hpermitted.holdersCounter hserved
          (fun s hs ↦ account_ne_of_kind (by decide) (hc.symm.trans hs)) hknown
      · exact process_countersLeft h hflags hmoves hpermitted.countriesCounter hserved
          (fun s hs ↦ account_ne_of_kind (by decide) (hL.countries.symm.trans hs)) hknown
  | true =>
      by_cases hburn : i.core.Misburns T
      · obtain ⟨X, x, n, hbooked⟩ := misburn_booked h hburn hboundM.loaded
        exact ⟨hheld.holders.burned hboundM hbooked,
          hheld.countries.burned hboundN hL.countries hbooked⟩
      · have hposts := process_posts h hmoves hL.anchored hboundM.loaded hboundM.home hburn
          hmismoves
        exact hheld.posts hL hposts hmoves hopened hpermitted hadmits

end Process

/-! ## Runs -/

/-- The counter of holders and the counts of all countries are within their caps. -/
def WithinCaps (M N : Pubkey) (L : Ledger) : Prop :=
  (∀ c : MaxInvestorsModule, L.accounts M = account c → c.holderCount ≤ c.maxInvestors) ∧
    ∀ m : InvestorCountryCapModule, L.accounts N = account m → CountsWithin N m L

theorem CapsHeld.within (hL : CapsBound T M N m L) (h : CapsHeld T M N cap m L) :
    WithinCaps M N L := by
  refine ⟨fun c hc ↦ ?_, fun m' hm' ↦ ?_⟩
  · obtain ⟨c', hc', -, hcap, hle⟩ := h.holders
    obtain rfl := account_inj.1 (hc.symm.trans hc')
    exact hcap ▸ hle
  · obtain rfl := account_inj.1 (hL.countries.symm.trans hm')
    exact h.countries

/-- In every run in which the caps stay in force and admit each execution once
more, no counter is above its cap. -/
theorem counters_within_caps [Borsh] {labels : List Label} (hL : CapsBound T M N m L)
    (hheld : CapsHeld T M N cap m L)
    (hrun : Run (restrict Step fun L l _ ↦ l.Core fun i ↦
      InvestorsPermitted T M N i ∧ ¬ i.Mismoves T L ∧ CapsAdmit T M N m L i) L labels L') :
    WithinCaps M N L' := by
  have hL' : CapsBound T M N m L' ∧ CapsHeld T M N cap m L' := by
    refine hrun.invariant (P := fun L ↦ CapsBound T M N m L ∧ CapsHeld T M N cap m L)
      (fun L l L' hinv hstep ↦ ?_) ⟨hL, hheld⟩
    obtain ⟨hL, hheld⟩ := hinv
    obtain ⟨hstep, hcore⟩ := hstep
    cases hstep with
    | instruction signers i hexternal h =>
        obtain ⟨hpermitted, hmismoves, hadmits⟩ := hcore
        exact ⟨process_capsBound h hexternal hpermitted hL,
          process_capsHeld h hpermitted hmismoves hadmits hL hheld⟩
    | environment h =>
        obtain ⟨state, hboundM, hboundN, hrunning⟩ := hL.bound
        exact ⟨⟨hL.anchored.environment h, ⟨state, hboundM.of_frame h (by decide),
            hboundN.of_frame h (by decide), hrunning⟩, h.accounts_eq (by decide) hL.countries,
            hL.served⟩,
          hheld.holders.of_frame h (by decide), hheld.countries.of_frame h (by decide)⟩
  exact hL'.2.within hL'.1

/-! ## The last place taken twice -/

def holderCap : Pubkey := moduleAddress MaxInvestorsModule (.address 0)

def countryCap : Pubkey := moduleAddress InvestorCountryCapModule (.address 0)

def firstSeller : Holding := ⟨.address 10, .address 11, 10⟩

def secondSeller : Holding := ⟨.address 12, .address 13, 10⟩

def firstBuyer : Holding := ⟨.address 20, .address 21, 0⟩

def secondBuyer : Holding := ⟨.address 22, .address 23, 0⟩

/-- A token whose caps leave room for one more holder. -/
def fullDeployment : Deployment where
  tokenMint := .address 0
  issuer := .address 1
  paused := false
  modules := [holderCap, countryCap]
  modulesPaused := false
  metas := baseMetas ++ [.pubkeyData 8 76 true, .fixed (.program .modMaxInvestors) false,
    .pubkeyData 8 108 true, .fixed (.program .modCountryCap) false,
    .externalPda 13 [.literal .countryCount, .accountKey 12, .accountData 7 224 2] true,
    .externalPda 13 [.literal .countryCount, .accountKey 12, .accountData 7 226 2] true]
  wallets := [(firstSeller.wallet, 276), (secondSeller.wallet, 276), (firstBuyer.wallet, 276),
    (secondBuyer.wallet, 276)]
  holdings := [firstSeller, secondSeller, firstBuyer, secondBuyer]

def countryCapRecord : InvestorCountryCapModule where
  owner := fullDeployment.issuer
  tokenMint := fullDeployment.tokenMint
  hookAuthority := fullDeployment.compliance
  countryCaps := [⟨276, 3⟩]

def residentRecord (count : ℕ) : CountryInvestorCount where
  module := countryCap
  country := 276
  count := count

def fullRecords : List (Pubkey × Account) :=
  [(holderCap, account (fullDeployment.maxInvestorsRecord 3 2)),
    (countryCap, account countryCapRecord), (countKey countryCap 276, account (residentRecord 2))]

def fullLedger : Ledger := fullDeployment.ledger fullRecords

theorem fullLedger_bound :
    CapsBound fullDeployment.tokenMint holderCap countryCap countryCapRecord fullLedger where
  anchored := fullDeployment.anchored rfl rfl (by simp [fullRecords, kind])
  bound := ⟨_, ⟨rfl, rfl, by decide, .head _⟩, ⟨rfl, rfl, by decide, .tail _ (.head _)⟩, rfl⟩
  countries := rfl
  served := rfl

theorem fullLedger_held :
    CapsHeld fullDeployment.tokenMint holderCap countryCap 3 countryCapRecord fullLedger where
  holders := ⟨_, rfl, rfl, rfl, by decide⟩
  countries := by
    intro country cap c hcap hc _
    have hcountry : country = 276 ∧ cap = 3 := by
      simp only [InvestorCountryCapModule.capOf, countryCapRecord, List.find?_cons,
        List.find?_nil] at hcap
      split at hcap
      · rename_i hkey
        simp only [Option.map_some, Option.some.injEq] at hcap
        exact ⟨(of_decide_eq_true hkey).symm, hcap.symm⟩
      · exact nomatch hcap
    obtain ⟨rfl, rfl⟩ := hcountry
    have hrecord : fullLedger.accounts (countKey countryCap 276) = account (residentRecord 2) := rfl
    obtain rfl := account_inj.1 (hc.symm.trans hrecord)
    decide

/-- The approval of a sale of 4 of 10 tokens to a buyer without any. -/
def sale (seller buyer : Holding) : Instruction :=
  .token (.transfer (fullDeployment.transferAccounts seller buyer .default .default .default
    [holderCap, countryCap, countKey countryCap 276]) 4 10 0)

def delivery (seller buyer : Holding) : Instruction :=
  .token2022 (.transferChecked seller.key fullDeployment.tokenMint buyer.key seller.wallet
    (fullDeployment.hookAccounts seller.key buyer.key seller.wallet ++
      [holderCap, .program .modMaxInvestors, countryCap, .program .modCountryCap,
        countKey countryCap 276]) 4 0)

theorem sale_permitted (seller buyer : Holding) :
    InvestorsPermitted fullDeployment.tokenMint holderCap countryCap (sale seller buyer) :=
  ⟨trivial, trivial, trivial, not_false, trivial, trivial, (fun _ _ _ _ _ _ _ _ hi ↦ nomatch hi),
    (fun _ _ _ _ _ _ hi ↦ nomatch hi)⟩

theorem delivery_permitted (seller buyer : Holding) :
    InvestorsPermitted fullDeployment.tokenMint holderCap countryCap (delivery seller buyer) :=
  ⟨trivial, trivial, trivial, not_false, trivial, trivial, (fun _ _ _ _ _ _ _ _ hi ↦ nomatch hi),
    (fun _ _ _ _ _ _ hi ↦ nomatch hi)⟩

theorem firstSeller_external : ∀ k ∈ [firstSeller.wallet], k.External :=
  List.forall_mem_singleton.2 (Pubkey.external_address 11)

theorem secondSeller_external : ∀ k ∈ [secondSeller.wallet], k.External :=
  List.forall_mem_singleton.2 (Pubkey.external_address 13)

/-- One sale takes the last place. -/
theorem one_sale_within_caps : ∃ u, Run (@Step strictBorsh) fullLedger
      [.instruction [firstSeller.wallet] (sale firstSeller firstBuyer),
        .instruction [firstSeller.wallet] (delivery firstSeller firstBuyer)] u ∧
    u.accounts holderCap = account (fullDeployment.maxInvestorsRecord 3 3) ∧
      WithinCaps holderCap countryCap u := by
  obtain ⟨s, u, a, hs, ha, hcap, hstored, hu, hcount⟩ : ∃ s u a,
      @process strictBorsh fullLedger [firstSeller.wallet] (sale firstSeller firstBuyer) = .ok s ∧
      s.accounts (approvalAddress firstSeller.key firstBuyer.key firstSeller.wallet) = account a ∧
      s.accounts holderCap = account (fullDeployment.maxInvestorsRecord 3 2) ∧
      (a.toCountry = 276 ∧ Token.storedCount s countryCap 276 = 2) ∧
      @process strictBorsh s [firstSeller.wallet] (delivery firstSeller firstBuyer) = .ok u ∧
      u.accounts holderCap = account (fullDeployment.maxInvestorsRecord 3 3) :=
    ⟨_, _, _, rfl, rfl, rfl, ⟨rfl, rfl⟩, rfl, rfl⟩
  have hfirst := @Step.instruction strictBorsh _ _ _ _ firstSeller_external hs
  have hsecond := @Step.instruction strictBorsh _ _ _ _ firstSeller_external hu
  have hadmits : CapsAdmit fullDeployment.tokenMint holderCap countryCap countryCapRecord s
      (delivery firstSeller firstBuyer) := by
    intro _ b hb
    obtain rfl := account_inj.1 (ha.symm.trans hb.loaded)
    refine ⟨fun _ c hc ↦ ?_, fun _ cap hcap ↦ ?_⟩
    · obtain rfl := account_inj.1 (hcap.symm.trans hc)
      decide
    · rw [hstored.1] at hcap ⊢
      obtain rfl := Option.some.inj hcap
      rw [hstored.2]
      decide
  refine ⟨u, .cons hfirst (.single hsecond), hcount, ?_⟩
  exact @counters_within_caps _ _ _ _ _ _ _ strictBorsh _ fullLedger_bound fullLedger_held
    (.cons ⟨hfirst, sale_permitted _ _, not_false, trivial⟩
      (.single ⟨hsecond, delivery_permitted _ _, fun h ↦ h.1 rfl, hadmits⟩))

/-- Two sales are approved while there is one place, and both are executed: four
holders under a cap of three. -/
theorem outstanding_sales_exceed_caps : ¬ ∀ (T M N : Pubkey) (cap : ℕ)
    (m : InvestorCountryCapModule) (L L' : Ledger) (labels : List Label), CapsBound T M N m L →
      CapsHeld T M N cap m L →
        Run (restrict (@Step strictBorsh) fun _ l _ ↦ l.Core fun i ↦
          InvestorsPermitted T M N i ∧ i.Transfers T) L labels L' → WithinCaps M N L' := by
  intro hall
  obtain ⟨s, t, u, v, hs, ht, hu, hv, hcount⟩ : ∃ s t u v,
      @process strictBorsh fullLedger [firstSeller.wallet] (sale firstSeller firstBuyer) = .ok s ∧
      @process strictBorsh s [secondSeller.wallet] (sale secondSeller secondBuyer) = .ok t ∧
      @process strictBorsh t [firstSeller.wallet] (delivery firstSeller firstBuyer) = .ok u ∧
      @process strictBorsh u [secondSeller.wallet] (delivery secondSeller secondBuyer) = .ok v ∧
      v.accounts holderCap = account (fullDeployment.maxInvestorsRecord 3 4) :=
    ⟨_, _, _, _, rfl, rfl, rfl, rfl, rfl⟩
  have hrun : Run (restrict (@Step strictBorsh) fun _ l _ ↦ l.Core fun i ↦
      InvestorsPermitted fullDeployment.tokenMint holderCap countryCap i ∧
        i.Transfers fullDeployment.tokenMint) fullLedger _ v :=
    .cons ⟨@Step.instruction strictBorsh _ _ _ _ firstSeller_external hs,
        sale_permitted _ _, rfl⟩ <|
      .cons ⟨@Step.instruction strictBorsh _ _ _ _ secondSeller_external ht,
        sale_permitted _ _, rfl⟩ <|
      .cons ⟨@Step.instruction strictBorsh _ _ _ _ firstSeller_external hu,
        delivery_permitted _ _, rfl⟩ <|
      .single ⟨@Step.instruction strictBorsh _ _ _ _ secondSeller_external hv,
        delivery_permitted _ _, rfl⟩
  have hwithin := hall _ _ _ _ _ _ _ _ fullLedger_bound fullLedger_held hrun
  exact absurd (hwithin.1 _ hcount) (by decide)

end Fracks
