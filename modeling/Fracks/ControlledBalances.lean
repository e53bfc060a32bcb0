import Fracks.Authorities
import Fracks.Deployment
import Fracks.Lib.Runs

/-!
# Balance changes of a mint of the factory

The mint made by `create_token_mint` has one account as its mint authority and
permanent delegate.  As long as that account keeps these authorities and the
hook program stays in place, every change of a balance runs the hook, is signed
by that account, or is a burn that Token-2022 grants to the holder.
-/

namespace Fracks.Token2022

open Checked AccountType Ledger TokenHook Runs

/-! ## Histories -/

inductive TokenEvent
  | call (signers : List Pubkey) (i : Instruction)
  | other

/-- Instructions of Token-2022 by any signers, and steps of other programs,
which do not own mints or token accounts. -/
inductive TokenStep : Ledger → TokenEvent → Ledger → Prop
  | call {L L' : Ledger} (signers : List Pubkey) (i : Instruction) :
      process L signers i = .ok L' → TokenStep L (.call signers i) L'
  | other {L L' : Ledger} (S : List AccountKind) :
      Frame S L L' → AccountKind.mint ∉ S → AccountKind.tokenAccount ∉ S →
        TokenStep L .other L'

/-- The hook program of `T` stays the one of this repository, and `K` does not
hand over its authorities over `T`. -/
def KeepsControl (T K : Pubkey) : TokenEvent → Prop
  | .call _ (.updateTransferHook k _ newProgram) => k = T → newProgram = some hookProgram
  | .call _ (.setMintAuthority k authority _ _) => ¬ (k = T ∧ authority = K)
  | _ => True

/-! ## The invariant -/

/-- The account `K` is mint authority and permanent delegate of `T`, and the hook
program is that of this repository. -/
def MintControlled (T K : Pubkey) (L : Ledger) : Prop :=
  ∃ m : Mint, L.accounts T = account m ∧ m.mintAuthority = some K ∧
    m.permanentDelegate = some (some K) ∧
      m.transferHook.bind TransferHook.programId = some hookProgram

/-- Every token account of `T` has the hook extension. -/
def Carried (T : Pubkey) (L : Ledger) : Prop :=
  ∀ (k : Pubkey) (a : TokenAccount), L.accounts k = account a → a.mint = T →
    a.transferring.isSome = true

variable {L L' : Ledger} {signers : List Pubkey} {T K k : Pubkey}

theorem MintControlled.congr (h : MintControlled T K L) (hT : L'.accounts T = L.accounts T) :
    MintControlled T K L' := by
  obtain ⟨m, hm, hrest⟩ := h
  exact ⟨m, hT ▸ hm, hrest⟩

theorem MintControlled.of_frame {S : List AccountKind} (h : MintControlled T K L)
    (hframe : Frame S L L') (hS : AccountKind.mint ∉ S) : MintControlled T K L' := by
  obtain ⟨m, hm, hrest⟩ := h
  exact ⟨m, hframe.accounts_eq hS hm, hrest⟩

/-- A mint rewritten under the same control. -/
theorem MintControlled.put_mint {m m' : Mint} (h : MintControlled T K L)
    (hm : L.accounts k = account m)
    (hauthority : k = T → m.mintAuthority = some K → m'.mintAuthority = some K)
    (hdelegate : k = T → m.permanentDelegate = some (some K) →
      m'.permanentDelegate = some (some K))
    (hhook : k = T → m.transferHook.bind TransferHook.programId = some hookProgram →
      m'.transferHook.bind TransferHook.programId = some hookProgram) :
    MintControlled T K (L.put k m') := by
  obtain ⟨m₀, hm₀, hK, hD, hP⟩ := h
  by_cases hk : k = T
  · subst hk
    obtain rfl := account_inj.1 (hm₀.symm.trans hm)
    exact ⟨m', put_accounts_self m', hauthority rfl hK, hdelegate rfl hD, hhook rfl hP⟩
  · exact ⟨m₀, by rw [put_accounts_of_ne _ (Ne.symm hk), hm₀], hK, hD, hP⟩

theorem Carried.put {a : TokenAccount} (h : Carried T L)
    (ha : a.mint = T → a.transferring.isSome = true) : Carried T (L.put k a) := by
  intro x b hb hT
  by_cases hx : x = k
  · subst hx
    obtain rfl := account_inj.1 (put_accounts_self a ▸ hb)
    exact ha hT
  · exact h x b (put_accounts_of_ne a hx ▸ hb) hT

theorem Carried.of_frame {S : List AccountKind} (h : Carried T L) (hframe : Frame S L L')
    (hS : AccountKind.tokenAccount ∉ S) : Carried T L' := by
  intro k a ha
  rw [← view_eq_some, hframe.view_eq (α := TokenAccount) hS, view_eq_some] at ha
  exact h k a ha

theorem Carried.put_mint {m m' : Mint} (h : Carried T L) (hm : L.accounts k = account m) :
    Carried T (L.put k m') := h.of_frame (S := [.mint]) (.put hm (by decide)) (by decide)

/-- Overwriting a token account of the same mint with the same extension. -/
theorem Carried.rewrite {a a' : TokenAccount} (h : Carried T L) (ha : L.accounts k = account a)
    (hmint : a'.mint = a.mint) (hflag : a'.transferring.isSome = a.transferring.isSome) :
    Carried T (L.put k a') := h.put fun hT ↦ hflag ▸ h k a ha (hmint ▸ hT)

/-- Both parts of the invariant under a write to one token account. -/
theorem MintControlled.put_account {a a' : TokenAccount} (h : MintControlled T K L)
    (ha : L.accounts k = account a) : MintControlled T K (L.put k a') :=
  h.of_frame (S := [.tokenAccount]) (.put ha (by decide)) (by decide)

/-! ## Each instruction keeps the invariant -/

/-- Control over `T`: over its mint and over its accounts. -/
structure InControl (T K : Pubkey) (L : Ledger) : Prop where
  mint : MintControlled T K L
  accounts : Carried T L

theorem Rewritten.inControl {a a' : TokenAccount} (h : Rewritten L L' k a a')
    (hc : InControl T K L) : InControl T K L' := by
  rw [h.result]
  exact ⟨hc.mint.put_account h.before, hc.accounts.rewrite h.before h.mint (by rw [h.transferring])⟩

section Create

variable {payer mintKey owner destination authority : Pubkey}

theorem createMint_inControl {mint : Mint} (h : createMint L signers payer k mint = .ok L')
    (hc : InControl T K L) : InControl T K L' := by
  simp only [createMint, bind_eq_ok, requireSigner_eq_ok, exists_const, Except.ok.injEq] at h
  obtain ⟨-, L₁, hcreate, rfl⟩ := h
  have hframe : Frame [.mint] L
      (L₁.put k { mint with supply := 0, isInitialized := true }) := .create hcreate (by decide)
  obtain ⟨hvacant, hother, -⟩ := createAccount_ok hcreate
  obtain ⟨m, hm, -⟩ := hc.mint
  have hne : T ≠ k := by
    rintro rfl
    exact account_ne_vacant m (hm.symm.trans hvacant)
  exact ⟨hc.mint.congr (by rw [put_accounts_of_ne _ hne, hother T hne]),
    hc.accounts.of_frame hframe (by decide)⟩

theorem createTokenAccount_inControl {immutableOwner : Bool}
    (h : createTokenAccount L signers payer k mintKey owner immutableOwner = .ok L')
    (hc : InControl T K L) : InControl T K L' := by
  obtain ⟨-, hother, hvacant, m, a, hm, ha, hmint, hflag⟩ := createTokenAccount_ok h
  obtain ⟨m₀, hm₀, -, -, hhook⟩ := hc.mint
  have hne : T ≠ k := by
    rintro rfl
    exact account_ne_vacant m₀ (hm₀.symm.trans hvacant)
  refine ⟨hc.mint.congr (hother T hne), fun x b hb hT ↦ ?_⟩
  by_cases hx : x = k
  · subst hx
    -- the new account carries the flag because its mint has the extension
    obtain rfl := account_inj.1 (ha.symm.trans hb)
    rw [hmint] at hT
    subst hT
    obtain rfl := account_inj.1 (hm.symm.trans hm₀)
    rw [hflag]
    cases hext : m.transferHook with
    | none => simp [hext] at hhook
    | some _ => rfl
  · exact hc.accounts x b (hother x hx ▸ hb) hT

theorem closeAccount_inControl (h : closeAccount L signers k destination authority = .ok L')
    (hc : InControl T K L) : InControl T K L' := by
  obtain ⟨a, ha, -, rfl⟩ := closeAccount_ok h
  refine ⟨hc.mint.of_frame (S := [.tokenAccount]) (.close ha (by decide)) (by decide),
    fun x b hb hT ↦ ?_⟩
  by_cases hx : x = k
  · exact absurd (close_vacant k destination ▸ hx ▸ hb).symm (account_ne_vacant b)
  · exact hc.accounts x b (setAccount_accounts_of_ne .vacant hx ▸ hb) hT

end Create

section Moves

variable {source destination authority mintKey : Pubkey} {amount : ℕ}

theorem mintTo_inControl {decimals : Option ℕ}
    (h : mintTo L signers mintKey destination authority amount decimals = .ok L')
    (hc : InControl T K L) : InControl T K L' := by
  obtain ⟨a, m, ha, hm, -, -, -, rfl⟩ := mintTo_ok h
  have hm' : (L.put destination { a with amount := a.amount + amount }).accounts mintKey =
      account m := by rw [put_accounts_of_ne _ (account_ne_mint ha hm).symm, hm]
  have haccounts : Carried T (L.put destination { a with amount := a.amount + amount }) :=
    hc.accounts.rewrite ha rfl rfl
  exact ⟨(hc.mint.put_account ha).put_mint hm' (fun _ h ↦ h) (fun _ h ↦ h) fun _ h ↦ h,
    haccounts.put_mint hm'⟩

theorem burn_inControl {decimals : Option ℕ}
    (h : burn L signers source mintKey authority amount decimals = .ok L')
    (hc : InControl T K L) : InControl T K L' := by
  obtain ⟨a, a', m, ha, hm, -, -, -, hdebit, rfl⟩ := burn_ok h
  have hm' : (L.put source { a' with amount := a.amount - amount }).accounts mintKey =
      account m := by rw [put_accounts_of_ne _ (account_ne_mint ha hm).symm, hm]
  have hsame : a'.mint = a.mint ∧ a'.transferring = a.transferring := by
    rcases hdebit with ⟨-, rfl⟩ | hdebit
    · exact ⟨rfl, rfl⟩
    · exact ⟨hdebit.mint, hdebit.transferring⟩
  have haccounts : Carried T (L.put source { a' with amount := a.amount - amount }) :=
    hc.accounts.rewrite ha hsame.1 (congrArg Option.isSome hsame.2)
  exact ⟨(hc.mint.put_account ha).put_mint hm' (fun _ h ↦ h) (fun _ h ↦ h) fun _ h ↦ h,
    haccounts.put_mint hm'⟩

/-- Writing the two accounts of a transfer. -/
theorem InControl.put_pair {a b x y : TokenAccount} (hc : InControl T K L)
    (hne : source ≠ destination) (ha : L.accounts source = account a)
    (hb : L.accounts destination = account b) (hxmint : x.mint = a.mint)
    (hymint : y.mint = b.mint) (hx : x.transferring.isSome = a.transferring.isSome)
    (hy : y.transferring.isSome = b.transferring.isSome) :
    InControl T K ((L.put source x).put destination y) := by
  have hb' : (L.put source x).accounts destination = account b := by
    rw [put_accounts_of_ne _ hne.symm, hb]
  exact ⟨(hc.mint.put_account ha).put_account hb',
    (hc.accounts.rewrite ha hxmint hx).rewrite hb' hymint hy⟩

theorem isSome_setTransferring (flag : Bool) (a : TokenAccount) :
    (setTransferring flag a).transferring.isSome = a.transferring.isSome := by
  cases h : a.transferring <;> simp [setTransferring, h]

theorem HookedTransfer.inControl {additional : List Pubkey} {program : Pubkey} {m : Mint}
    {a a' b : TokenAccount} {L₂ : Ledger}
    (h : HookedTransfer L L' signers source mintKey destination authority additional amount program
      m a a' b L₂) (hc : InControl T K L) : InControl T K L' := by
  have hflag : (debited a a' amount).transferring = a.transferring := h.debit.transferring
  have hmoved : InControl T K
      (movedLedger L source destination (debited a a' amount) (credited b amount)) :=
    hc.put_pair h.ne h.sourceAt h.destinationAt h.debit.mint rfl
      ((isSome_setTransferring _ _).trans (congrArg Option.isSome hflag))
      (isSome_setTransferring _ _)
  have hframe := frame_invokeHook h.invoked
  have hhooked : InControl T K L₂ :=
    ⟨hmoved.mint.of_frame hframe (by decide), hmoved.accounts.of_frame hframe (by decide)⟩
  rw [h.result]
  exact hhooked.put_pair h.ne h.sourceSeen h.destinationSeen rfl rfl
    ((isSome_setTransferring _ _).trans (isSome_setTransferring _ _).symm)
    ((isSome_setTransferring _ _).trans (isSome_setTransferring _ _).symm)

end Moves

/-- Every instruction that meets the condition keeps control. -/
theorem process_inControl {i : Instruction} (h : process L signers i = .ok L')
    (hkeeps : KeepsControl T K (.call signers i)) (hc : InControl T K L) : InControl T K L' := by
  cases i with
  | createMint => exact createMint_inControl h hc
  | createTokenAccount => exact createTokenAccount_inControl h hc
  | approve =>
      obtain ⟨_, _, h⟩ := approve_ok h
      exact h.inControl hc
  | revoke =>
      obtain ⟨_, _, h⟩ := revoke_ok h
      exact h.inControl hc
  | closeAccount => exact closeAccount_inControl h hc
  | setAccountAuthority =>
      obtain ⟨_, _, h⟩ := setAccountAuthority_ok h
      exact h.inControl hc
  | setFrozen =>
      obtain ⟨_, _, h⟩ := setFrozen_ok h
      exact h.inControl hc
  | setMintAuthority k authority type newAuthority =>
      obtain ⟨m, m', h, hmint, hdelegate, hhook⟩ := setMintAuthority_ok h
      rw [h.result]
      refine ⟨hc.mint.put_mint h.before (fun hk hK ↦ ?_) (fun hk hD ↦ ?_)
        (fun _ hP ↦ hhook.trans hP), hc.accounts.put_mint h.before⟩
      · rcases hmint with hmint | hmint
        · exact hmint.trans hK
        · exact absurd ⟨hk, Option.some.inj (hmint.symm.trans hK)⟩ hkeeps
      · rcases hdelegate with hdelegate | hdelegate
        · exact hdelegate.trans hD
        · exact absurd ⟨hk, Option.some.inj (Option.some.inj (hdelegate.symm.trans hD))⟩ hkeeps
  | updateTransferHook k authority newProgram =>
      simp only [process, updateTransferHook, bind_eq_ok, unpackMint_eq_ok, okOr_eq_ok,
        validateOwner_eq_ok, require_eq_ok, exists_const, Except.ok.injEq] at h
      obtain ⟨m, hm, hook, hhook, _, -, -, -, rfl⟩ := h
      exact ⟨hc.mint.put_mint hm (fun _ h ↦ h) (fun _ h ↦ h) fun hk _ ↦ hkeeps hk,
        hc.accounts.put_mint hm⟩
  | mintTo => exact mintTo_inControl h hc
  | burn => exact burn_inControl h hc
  | transferChecked =>
      rcases transferChecked_ok h with ⟨-, rfl⟩ |
        ⟨m, a, a', b, hne, ha, hb, -, -, -, -, hdebit, -, rfl⟩ | ⟨_, _, _, _, _, _, hhooked⟩
      · exact hc
      · exact hc.put_pair hne ha hb hdebit.mint rfl (congrArg Option.isSome hdebit.transferring) rfl
      · exact hhooked.inControl hc
  | transfer =>
      rcases transfer_ok h with ⟨-, rfl⟩ | ⟨a, a', b, hne, ha, hb, -, -, -, hdebit, rfl⟩
      · exact hc
      · exact hc.put_pair hne ha hb hdebit.mint rfl (congrArg Option.isSome hdebit.transferring) rfl

theorem TokenStep.inControl {e : TokenEvent} (h : TokenStep L e L') (hkeeps : KeepsControl T K e)
    (hc : InControl T K L) : InControl T K L' := by
  cases h with
  | call signers i h => exact process_inControl h hkeeps hc
  | other S hframe hmint haccount =>
      exact ⟨hc.mint.of_frame hframe hmint, hc.accounts.of_frame hframe haccount⟩

/-! ## Balance changes -/

/-- The instruction is a transfer of `T` that runs the hook on the moved
balances, for exactly this transfer, and the hook succeeds. -/
def HookExecuted (T : Pubkey) (L : Ledger) (i : Instruction) (L' : Ledger) : Prop :=
  ∃ source destination authority additional amount decimals,
    i = .transferChecked source T destination authority additional amount decimals ∧
      ∃ (accts : ExecuteAccounts) (L₁ L₂ : Ledger), accts.source = source ∧ accts.mint = T ∧
        accts.destination = destination ∧ accts.authority = authority ∧
          Frame [.tokenAccount] L L₁ ∧ executeTransferHook L₁ accts amount = .ok L₂ ∧
            Frame [.tokenAccount] L₂ L'

/-- The instruction is a burn of `T` by the owner or the delegate of the account,
or from an account of the system program or of the incinerator. -/
def HolderBurn (T : Pubkey) (L : Ledger) (signers : List Pubkey) (i : Instruction) : Prop :=
  ∃ source authority amount decimals, i = .burn source T authority amount decimals ∧
    ∃ a : TokenAccount, L.accounts source = account a ∧
      (ownedBySystemOrIncinerator a ∨
        authority ∈ signers ∧ (a.owner = authority ∨ a.delegate = some authority))

/-- Under control an instruction that changes a balance of `T` executes the hook,
is signed by `K` or is a burn of the holder. -/
theorem process_balance {i : Instruction} (h : process L signers i = .ok L')
    (hc : InControl T K L) (hchange : balance L' T k ≠ balance L T k) :
    HookExecuted T L i L' ∨ K ∈ signers ∨ HolderBurn T L signers i := by
  obtain ⟨m₀, hm₀, hK, hD, hP⟩ := hc.mint
  cases hi : i.moves with
  | false => exact absurd (congrFun ((process_quiet h hi).books T).1 k) hchange
  | true =>
      cases i with
      | mintTo mint destination authority amount decimals =>
          by_cases hT : T = mint
          · subst hT
            obtain ⟨a, m, -, hm, -, hauthority, hsigned, -⟩ := mintTo_ok h
            obtain rfl := account_inj.1 (hm₀.symm.trans hm)
            exact .inr (.inl (Option.some.inj (hauthority.symm.trans hK) ▸ hsigned))
          · exact absurd (by rw [(mintTo_books h T).1]; simp [hT]) hchange
      | burn source mint authority amount decimals =>
          by_cases hT : T = mint
          · subst hT
            obtain ⟨a, a', m, ha, hm, -, -, -, hdebit, -⟩ := burn_ok h
            obtain rfl := account_inj.1 (hm₀.symm.trans hm)
            rcases hdebit with ⟨hsystem, -⟩ | hdebit
            · exact .inr (.inr ⟨source, authority, amount, decimals, rfl, a, ha, .inl hsystem⟩)
            · rcases hdebit.authorized with hpermanent | hdelegate | howner
              · rw [hD] at hpermanent
                exact .inr (.inl (Option.some.inj hpermanent ▸ hdebit.signed))
              · exact .inr (.inr ⟨source, authority, amount, decimals, rfl, a, ha,
                  .inr ⟨hdebit.signed, .inr hdelegate⟩⟩)
              · exact .inr (.inr ⟨source, authority, amount, decimals, rfl, a, ha,
                  .inr ⟨hdebit.signed, .inl howner⟩⟩)
          · exact absurd (by rw [(burn_books h T).2.2.1]; simp [hT]) hchange
      | transferChecked source mint destination authority additional amount decimals =>
          rcases transferChecked_ok h with ⟨-, rfl⟩ |
            ⟨m, a, a', b, hne, ha, hb, hm, hamint, hbmint, -, hdebit, hnone, rfl⟩ |
            ⟨program, m, a, a', b, L₂, hhooked⟩
          · exact absurd rfl hchange
          · -- a transfer that ran no hook is of another mint
            have hT : T ≠ mint := by
              rintro rfl
              obtain rfl := account_inj.1 (hm₀.symm.trans hm)
              simp [hP] at hnone
            refine absurd ?_ hchange
            rw [balance_unhooked ha hb hamint hbmint hdebit]
            simp [hT]
          · by_cases hT : T = mint
            · subst hT
              obtain rfl := account_inj.1 (hm₀.symm.trans hhooked.mintAt)
              obtain rfl := Option.some.inj (hP.symm.trans hhooked.hook)
              rcases invokeHook_ok hhooked.invoked with
                ⟨-, accts, hsource, hmint, hdestination, hauthority, hexecute⟩ | ⟨hprogram, -⟩
              · exact .inl ⟨source, destination, authority, additional, amount, decimals, rfl,
                  accts, _, L₂, hsource, hmint, hdestination, hauthority, hhooked.frame_moved,
                  hexecute, hhooked.frame_down⟩
              · exact absurd rfl hprogram
            · exact absurd (by rw [(hhooked.books T).1]; simp [hT]) hchange
      | transfer source destination authority amount =>
          rcases transfer_ok h with ⟨-, rfl⟩ |
            ⟨a, a', b, hne, ha, hb, hmint, hflag, -, hdebit, rfl⟩
          · exact absurd rfl hchange
          · -- the accounts of `T` have the flag that this instruction refuses
            have hT : T ≠ a.mint := by
              rintro rfl
              have hcarried := hc.accounts source a ha rfl
              simp [hflag] at hcarried
            refine absurd ?_ hchange
            rw [balance_unhooked ha hb rfl hmint.symm hdebit]
            simp [hT]
      | _ => simp [Instruction.moves] at hi

/-- The mint made by `create_token_mint` is under the control of the account it
was given as token state. -/
theorem createTokenMint_inControl {L₀ : Ledger} {accts : Factory.CreateTokenMint} {decimals : ℕ}
    (hcreate : Factory.createTokenMint L₀ signers accts decimals = .ok L)
    (hfresh : ∀ (k : Pubkey) (a : TokenAccount), L₀.accounts k = account a →
      a.mint ≠ accts.tokenMintAccount) :
    InControl accts.tokenMintAccount accts.tokenState L := by
  obtain ⟨-, hmint, -⟩ := Factory.createTokenMint_ok hcreate
  refine ⟨⟨_, hmint, rfl, rfl, rfl⟩, ?_⟩
  have hnone : Carried accts.tokenMintAccount L₀ := fun k a ha hT ↦ absurd hT (hfresh k a ha)
  exact hnone.of_frame (Factory.frame_createTokenMint hcreate) (by decide)

/-- After `create_token_mint`, in every run in which the hook program stays and
the token state keeps its authorities, each instruction that changes a balance
of the mint executes the hook, is signed by the token state, or is a burn that
Token-2022 grants to the holder. -/
theorem balance_changes_controlled {L₀ t u : Ledger} {creators : List Pubkey}
    {accts : Factory.CreateTokenMint} {decimals : ℕ} {events : List TokenEvent} {i : Instruction}
    (hcreate : Factory.createTokenMint L₀ creators accts decimals = .ok L)
    (hfresh : ∀ (k : Pubkey) (a : TokenAccount), L₀.accounts k = account a →
      a.mint ≠ accts.tokenMintAccount)
    (hrun : Run (restrict TokenStep fun _ e _ ↦
      KeepsControl accts.tokenMintAccount accts.tokenState e) L events t)
    (hstep : process t signers i = .ok u)
    (hchange : balance u accts.tokenMintAccount k ≠ balance t accts.tokenMintAccount k) :
    HookExecuted accts.tokenMintAccount t i u ∨ accts.tokenState ∈ signers ∨
      HolderBurn accts.tokenMintAccount t signers i := by
  have hc : InControl accts.tokenMintAccount accts.tokenState t :=
    hrun.invariant (fun _ _ _ hc hstep ↦ hstep.1.inControl hstep.2 hc)
      (createTokenMint_inControl hcreate hfresh)
  exact process_balance hstep hc hchange

/-- In a transfer that has run the hook, the mint names the hook program. -/
theorem HookExecuted.named {i : Instruction} (h : HookExecuted T L i L') :
    ∃ m : Mint, L.accounts T = account m ∧
      m.transferHook.bind TransferHook.programId = some hookProgram := by
  obtain ⟨_, _, _, _, _, _, -, accts, L₁, L₂, -, rfl, -, -, hframe, hexecute, -⟩ := h
  obtain ⟨_, _, m, _, _, hexecuted⟩ := executeTransferHook_ok hexecute
  have hm := view_eq_some.2 hexecuted.mintAt
  rw [hframe.view_eq (by decide), view_eq_some] at hm
  exact ⟨m, hm, hexecuted.hook⟩

/-! ## The creator removes the hook -/

def security : Pubkey := .address 0

def creator : Pubkey := .address 1

def holderAccount : Pubkey := .address 10

def holder : Pubkey := .address 11

def buyerAccount : Pubkey := .address 12

def securityState : Pubkey := Token.tokenStateAddress security

/-- Nothing but the lamports of the creator. -/
def genesis : Ledger where
  accounts _ := .vacant
  lamports k := if k = creator then 10 ^ 15 else 0
  now := 1000

def securityAccounts : Factory.CreateTokenMint where
  payer := creator
  tokenState := securityState
  tokenMintAccount := security
  hookProgram := hookProgram
  token2022Program := tokenProgram
  systemProgram := .default

def openAccount (k owner : Pubkey) : Instruction :=
  .createTokenAccount creator k security owner false

def issue : Instruction := .mintTo security holderAccount securityState 10 none

/-- The creator of the mint has the authority over its hook. -/
def removeHook : Instruction := .updateTransferHook security creator none

/-- Three of the ten tokens to the buyer. -/
def sale : Instruction := .transferChecked holderAccount security buyerAccount holder [] 3 0

def saleEvents : List TokenEvent :=
  [.call [creator] (openAccount holderAccount holder),
    .call [creator] (openAccount buyerAccount (.address 13)), .call [securityState] issue,
    .call [creator] removeHook]

/-- Without its hook program the mint lets a holder transfer with no check of the controller. -/
theorem hook_removal_escapes : ∃ L,
    Factory.createTokenMint genesis [creator, security] securityAccounts 0 = .ok L ∧
      ¬ ∀ (events : List TokenEvent) (t u : Ledger) (signers : List Pubkey) (i : Instruction)
        (k : Pubkey), Run TokenStep L events t → process t signers i = .ok u →
          balance u security k ≠ balance t security k →
            HookExecuted security t i u ∨ securityState ∈ signers := by
  obtain ⟨L, L₁, L₂, L₃, t, u, m, hcreate, hholder, hbuyer, hissue, hremove, hsale, hm, hhook,
      hbefore, hafter⟩ : ∃ (L L₁ L₂ L₃ t u : Ledger) (m : Mint),
      Factory.createTokenMint genesis [creator, security] securityAccounts 0 = .ok L ∧
      process L [creator] (openAccount holderAccount holder) = .ok L₁ ∧
      process L₁ [creator] (openAccount buyerAccount (.address 13)) = .ok L₂ ∧
      process L₂ [securityState] issue = .ok L₃ ∧ process L₃ [creator] removeHook = .ok t ∧
      process t [holder] sale = .ok u ∧ t.accounts security = account m ∧
      m.transferHook.bind TransferHook.programId = none ∧
      balance t security holderAccount = 10 ∧ balance u security holderAccount = 7 :=
    ⟨_, _, _, _, _, _, _, rfl, rfl, rfl, rfl, rfl, rfl, rfl, rfl, rfl, rfl⟩
  have hrun : Run TokenStep L saleEvents t :=
    .cons (.call _ _ hholder) (.cons (.call _ _ hbuyer) (.cons (.call _ _ hissue)
      (.single (.call _ _ hremove))))
  refine ⟨L, hcreate, fun hall ↦ ?_⟩
  rcases hall _ _ _ _ _ holderAccount hrun hsale (by rw [hbefore, hafter]; decide) with
    hexecuted | hsigned
  · obtain ⟨m', hm', hnamed⟩ := hexecuted.named
    obtain rfl := account_inj.1 (hm'.symm.trans hm)
    rw [hhook] at hnamed
    cases hnamed
  · exact absurd hsigned (by decide)

/-- The issue is signed by the token state. -/
theorem issue_controlled : ∃ L t u, process L [creator] (openAccount holderAccount holder) = .ok t ∧
    process t [securityState] issue = .ok u ∧
      balance u security holderAccount ≠ balance t security holderAccount ∧
        (HookExecuted security t issue u ∨ securityState ∈ [securityState] ∨
          HolderBurn security t [securityState] issue) := by
  obtain ⟨L, t, u, hcreate, hholder, hissue, hbefore, hafter⟩ : ∃ L t u : Ledger,
      Factory.createTokenMint genesis [creator, security] securityAccounts 0 = .ok L ∧
      process L [creator] (openAccount holderAccount holder) = .ok t ∧
      process t [securityState] issue = .ok u ∧
      balance t security holderAccount = 0 ∧ balance u security holderAccount = 10 :=
    ⟨_, _, _, rfl, rfl, rfl, rfl, rfl⟩
  have hchange : balance u security holderAccount ≠ balance t security holderAccount := by
    rw [hbefore, hafter]
    decide
  exact ⟨L, t, u, hholder, hissue, hchange, balance_changes_controlled hcreate
    (fun k a ha ↦ absurd ha.symm (account_ne_vacant a)) (.single ⟨.call _ _ hholder, trivial⟩)
    hissue hchange⟩

end Fracks.Token2022
