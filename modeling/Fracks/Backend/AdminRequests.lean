import Fracks.Backend.Compliance
import Fracks.Lib.Checked
import Fracks.Lib.Runs

/-!
# Signed requests of the platform owner

The guard of the administration: a request names the wallet of the platform, a time stamp
and a nonce, and is signed over all of it.  The guard remembers the nonces it has accepted
for as long as its window is wide.  A request may be stamped a little ahead of the clock,
and then its nonce is forgotten before the stamp expires.
-/

namespace Fracks.Backend

open Checked Runs

def authorizationWindowMs : ℤ := 5 * 60 * 1000

def clockToleranceMs : ℤ := 30000

/-- A header with one value or with several. -/
inductive HeaderValue
  | one (value : String)
  | several (values : List String)

/-- The body is its JSON text, that of an empty object where there is none. -/
structure SignedAdminRequest where
  body : String
  headers : String → Option HeaderValue
  method : String
  originalUrl : String

/-- What the guard takes from its surroundings: `timestampMs` is `Number` where that is a safe
integer. -/
structure AdminSettings (K : Type) where
  platformOwner : Option String
  timestampMs : String → Option ℤ
  publicKey : String → Option K
  toBase58 : K → String
  sha256 : String → String
  base64 : String → List UInt8
  verify : K → String → List UInt8 → Bool

def getHeader (request : SignedAdminRequest) (name : String) : String :=
  match request.headers name with
  | some (.one value) => value
  | some (.several values) => values.headD ""
  | none => ""

/-- `/^[a-zA-Z0-9-]{16,128}$/` -/
def isNonce (text : String) : Bool :=
  decide (16 ≤ text.length ∧ text.length ≤ 128) &&
    text.toList.all fun c ↦ c.isAlphanum || c = '-'

/-- The path of a request, without its query. -/
def adminPath (originalUrl : String) : String :=
  String.ofList (originalUrl.toList.takeWhile (· ≠ '?'))

/-- The accepted nonces, each with the time it was accepted. -/
abbrev UsedNonces := List (String × ℤ)

def pruneUsedNonces (used : UsedNonces) (now : ℤ) : UsedNonces :=
  used.filter fun entry ↦ ¬ entry.2 < now - authorizationWindowMs

section Guard

variable {K : Type} [DecidableEq K]

/-- What is signed. -/
def adminMessage (settings : AdminSettings K) (request : SignedAdminRequest) : String :=
  "\n".intercalate ["FRACKS_ADMIN_REQUEST", request.method.toUpper,
    adminPath request.originalUrl, getHeader request "x-admin-timestamp",
    getHeader request "x-admin-nonce", settings.sha256 request.body]

def replayKey (settings : AdminSettings K) (wallet : K) (request : SignedAdminRequest) : String :=
  let nonce := getHeader request "x-admin-nonce"
  s!"{settings.toBase58 wallet}:{nonce}"

/-- The checks before the nonces are looked at; the result is the wallet. -/
def checkAdminHeaders (settings : AdminSettings K) (now : ℤ) (request : SignedAdminRequest) :
    Except String K := do
  let expectedWalletAddress := trim (settings.platformOwner.getD "")
  require (expectedWalletAddress ≠ "") "Platform admin wallet is not configured."
  let walletAddress := getHeader request "x-admin-wallet"
  let timestamp := getHeader request "x-admin-timestamp"
  let nonce := getHeader request "x-admin-nonce"
  require (walletAddress ≠ "" ∧ timestamp ≠ "" ∧ nonce ≠ "" ∧
    getHeader request "x-admin-signature" ≠ "") "Platform admin wallet signature is required."
  let timestampMs ← okOr (settings.timestampMs timestamp)
    "Platform admin wallet signature has expired."
  require (timestampMs ≤ now + clockToleranceMs ∧ now - authorizationWindowMs ≤ timestampMs)
    "Platform admin wallet signature has expired."
  require (isNonce nonce = true) "Platform admin wallet signature nonce is invalid."
  let wallet ← okOr (settings.publicKey walletAddress) "Platform admin wallet address is invalid."
  let expected ← okOr (settings.publicKey expectedWalletAddress)
    "Platform admin wallet address is invalid."
  require (wallet = expected) "Platform admin wallet is not authorized."
  .ok wallet

/-- The checks after that. -/
def checkAdminSignature (settings : AdminSettings K) (wallet : K) (request : SignedAdminRequest) :
    Except String Unit := do
  let signature := settings.base64 (getHeader request "x-admin-signature")
  require (signature.length = 64) "Platform admin wallet signature is invalid."
  require (settings.verify wallet (adminMessage settings request) signature = true)
    "Platform admin wallet signature is invalid."

/-- Expired nonces go in any case, and the nonce of an accepted request is added. -/
def canActivate (settings : AdminSettings K) (used : UsedNonces) (now : ℤ)
    (request : SignedAdminRequest) : UsedNonces × Except String Unit :=
  match checkAdminHeaders settings now request with
  | .error message => (used, .error message)
  | .ok wallet =>
      let pruned := pruneUsedNonces used now
      let key := replayKey settings wallet request
      if pruned.any fun entry ↦ entry.1 = key then
        (pruned, .error "Platform admin wallet signature was already used.")
      else
        match checkAdminSignature settings wallet request with
        | .error message => (pruned, .error message)
        | .ok _ => (pruned ++ [(key, now)], .ok ())

/-! ## What the guard accepts -/

/-- The part of the checks that the clock has no say in. -/
structure Presented (settings : AdminSettings K) (request : SignedAdminRequest) (wallet : K)
    (timestampMs : ℤ) : Prop where
  configured : trim (settings.platformOwner.getD "") ≠ ""
  given : getHeader request "x-admin-wallet" ≠ "" ∧ getHeader request "x-admin-timestamp" ≠ "" ∧
    getHeader request "x-admin-nonce" ≠ "" ∧ getHeader request "x-admin-signature" ≠ ""
  stamped : settings.timestampMs (getHeader request "x-admin-timestamp") = some timestampMs
  nonce : isNonce (getHeader request "x-admin-nonce") = true
  signer : settings.publicKey (getHeader request "x-admin-wallet") = some wallet
  owner : settings.publicKey (trim (settings.platformOwner.getD "")) = some wallet

/-- The time stamp stands at the time. -/
def InWindow (now timestampMs : ℤ) : Prop :=
  timestampMs ≤ now + clockToleranceMs ∧ now - authorizationWindowMs ≤ timestampMs

variable {settings : AdminSettings K} {used : UsedNonces} {now a b t : ℤ}
  {request request' : SignedAdminRequest} {wallet : K}

theorem checkAdminHeaders_eq_ok : checkAdminHeaders settings now request = .ok wallet ↔
    ∃ t, Presented settings request wallet t ∧ InWindow now t := by
  simp only [checkAdminHeaders, bind_eq_ok, require_eq_ok, okOr_eq_ok, exists_const,
    Except.ok.injEq]
  constructor
  · rintro ⟨hconfigured, hgiven, t, hstamped, hwindow, hnonce, k, hsigner, k', howner, rfl, rfl⟩
    exact ⟨t, ⟨hconfigured, hgiven, hstamped, hnonce, hsigner, howner⟩, hwindow⟩
  · rintro ⟨t, hpresented, hwindow⟩
    exact ⟨hpresented.configured, hpresented.given, t, hpresented.stamped, hwindow,
      hpresented.nonce, wallet, hpresented.signer, wallet, hpresented.owner, rfl, rfl⟩

/-- No nonce of the key has been accepted within the window. -/
def Unused (used : UsedNonces) (now : ℤ) (key : String) : Prop :=
  ∀ entry ∈ used, entry.1 = key → entry.2 < now - authorizationWindowMs

theorem any_pruned_eq_false {key : String} :
    ((pruneUsedNonces used now).any fun entry ↦ entry.1 = key) = false ↔ Unused used now key := by
  simp only [pruneUsedNonces, List.any_eq_false, List.mem_filter, decide_eq_true_eq, and_imp,
    Unused]
  constructor
  · intro h entry hentry hkey
    by_contra hlate
    exact h entry hentry hlate hkey
  · intro h entry hentry hlate hkey
    exact hlate (h entry hentry hkey)

/-- The request is accepted, and its nonce noted. -/
theorem canActivate_ok : (canActivate settings used now request).2 = .ok () ↔
    ∃ wallet t, Presented settings request wallet t ∧ InWindow now t ∧
      checkAdminSignature settings wallet request = .ok () ∧
        Unused used now (replayKey settings wallet request) := by
  unfold canActivate
  cases hheaders : checkAdminHeaders settings now request with
  | error message =>
      constructor
      · intro h
        cases h
      · rintro ⟨wallet, t, hpresented, hwindow, -⟩
        rw [checkAdminHeaders_eq_ok.2 ⟨t, hpresented, hwindow⟩] at hheaders
        cases hheaders
  | ok wallet =>
      obtain ⟨t, hpresented, hwindow⟩ := checkAdminHeaders_eq_ok.1 hheaders
      have hwallet : ∀ wallet' t', Presented settings request wallet' t' → wallet' = wallet := by
        intro wallet' t' hpresented'
        exact Option.some.inj (hpresented'.signer.symm.trans hpresented.signer)
      dsimp only
      split
      case isTrue hused =>
        constructor
        · intro h
          cases h
        · rintro ⟨wallet', t', hpresented', -, -, hunused⟩
          obtain rfl := hwallet wallet' t' hpresented'
          rw [any_pruned_eq_false.2 hunused] at hused
          cases hused
      case isFalse hunused =>
        have hunused := any_pruned_eq_false.1 (Bool.eq_false_iff.2 hunused)
        cases hsignature : checkAdminSignature settings wallet request with
        | error message =>
            constructor
            · intro h
              cases h
            · rintro ⟨wallet', t', hpresented', -, hsigned, -⟩
              obtain rfl := hwallet wallet' t' hpresented'
              rw [hsigned] at hsignature
              cases hsignature
        | ok _ =>
            constructor
            · intro h
              exact ⟨wallet, t, hpresented, hwindow, hsignature, hunused⟩
            · intro h
              rfl

/-- What the guard remembers after an accepted request. -/
theorem canActivate_fst (hpresented : Presented settings request wallet t)
    (h : (canActivate settings used now request).2 = .ok ()) :
    (canActivate settings used now request).1 =
      pruneUsedNonces used now ++ [(replayKey settings wallet request, now)] := by
  obtain ⟨wallet', t', hpresented', hwindow, hsigned, hunused⟩ := canActivate_ok.1 h
  obtain rfl : wallet' = wallet := by
    exact Option.some.inj (hpresented'.signer.symm.trans hpresented.signer)
  have hheaders : checkAdminHeaders settings now request = .ok wallet' := by
    apply checkAdminHeaders_eq_ok.2
    exact ⟨t', hpresented', hwindow⟩
  unfold canActivate
  rw [hheaders]
  dsimp only
  rw [if_neg (Bool.eq_false_iff.1 (any_pruned_eq_false.2 hunused)), hsigned]

/-- The guard forgets only what has expired. -/
theorem canActivate_remembers {entry : String × ℤ} (hentry : entry ∈ used)
    (hrecent : now - authorizationWindowMs ≤ entry.2) :
    entry ∈ (canActivate settings used now request).1 := by
  have hpruned : entry ∈ pruneUsedNonces used now := by
    apply List.mem_filter.2
    exact ⟨hentry, by simpa using hrecent⟩
  unfold canActivate
  split
  case h_1 => exact hentry
  case h_2 =>
    dsimp only
    split
    case isTrue => exact hpruned
    case isFalse =>
      split
      case h_1 => exact hpruned
      case h_2 => exact List.mem_append_left _ hpruned

/-! ## Runs of the guard -/

structure GuardState where
  used : UsedNonces
  clock : ℤ

/-- A request with the time of its arrival. -/
structure AdminCall where
  now : ℤ
  request : SignedAdminRequest

def GuardState.after (settings : AdminSettings K) (state : GuardState) (call : AdminCall) :
    GuardState :=
  ⟨(canActivate settings state.used call.now call.request).1, call.now⟩

/-- The guard answers one call after the other, and its clock does not go back. -/
inductive GuardStep (settings : AdminSettings K) : GuardState → AdminCall → GuardState → Prop
  | answered {state : GuardState} {call : AdminCall} : state.clock ≤ call.now →
      GuardStep settings state call (state.after settings call)

/-- The request is accepted at the time. -/
def Accepts (settings : AdminSettings K) (state : GuardState) (now : ℤ)
    (request : SignedAdminRequest) : Prop :=
  state.clock ≤ now ∧ (canActivate settings state.used now request).2 = .ok ()

/-- The key has been accepted since `a`, or its window has passed. -/
def Noted (key : String) (a : ℤ) (state : GuardState) : Prop :=
  (∃ entry ∈ state.used, entry.1 = key ∧ a ≤ entry.2) ∨ a + authorizationWindowMs < state.clock

variable {state state' later : GuardState} {call : AdminCall} {calls : List AdminCall}
  {key : String}

theorem Noted.step (hnoted : Noted key a state) (h : GuardStep settings state call state') :
    Noted key a state' := by
  cases h with
  | answered hclock =>
      rcases hnoted with ⟨entry, hentry, hkey, hsince⟩ | hpassed
      · by_cases hrecent : call.now - authorizationWindowMs ≤ entry.2
        · left
          exact ⟨entry, canActivate_remembers hentry hrecent, hkey, hsince⟩
        · right
          show a + authorizationWindowMs < call.now
          omega
      · right
        show a + authorizationWindowMs < call.now
        omega

theorem Noted.run (hnoted : Noted key a state) (h : Run (GuardStep settings) state calls later) :
    Noted key a later := by
  apply h.invariant (P := Noted key a) ?_ hnoted
  intro s l s' hs hstep
  exact hs.step hstep

/-- While a nonce is noted no request with it is accepted. -/
theorem Noted.late (hnoted : Noted key a state) (hkey : replayKey settings wallet request = key)
    (hpresented : Presented settings request wallet t) (h : Accepts settings state b request) :
    a + authorizationWindowMs < b := by
  obtain ⟨hclock, haccepted⟩ := h
  obtain ⟨wallet', t', hpresented', -, -, hunused⟩ := canActivate_ok.1 haccepted
  obtain rfl : wallet' = wallet := by
    exact Option.some.inj (hpresented'.signer.symm.trans hpresented.signer)
  rcases hnoted with ⟨entry, hentry, hentryKey, hsince⟩ | hpassed
  · have hforgotten := hunused entry hentry (hentryKey.trans hkey.symm)
    omega
  · omega

/-- After a request has been accepted at the time `a`, some continuation accepts its headers a
second time exactly when they are stamped later than `a`. -/
theorem accepted_again_iff (htime : settings.timestampMs (getHeader request "x-admin-timestamp") =
      some t) (haccepted : Accepts settings state a request) :
    (∃ calls later b request', request'.headers = request.headers ∧
      Run (GuardStep settings) (state.after settings ⟨a, request⟩) calls later ∧
        Accepts settings later b request') ↔ a < t := by
  obtain ⟨wallet, t', hpresented, hwindow, hsigned, hunused⟩ := canActivate_ok.1 haccepted.2
  obtain rfl : t' = t := Option.some.inj (hpresented.stamped.symm.trans htime)
  have hused : (state.after settings ⟨a, request⟩).used =
      pruneUsedNonces state.used a ++ [(replayKey settings wallet request, a)] :=
    canActivate_fst hpresented haccepted.2
  constructor
  · rintro ⟨calls, later, b, request', hheaders, hrun, hagain⟩
    have hsame : ∀ name, getHeader request' name = getHeader request name := by
      intro name
      rw [getHeader, hheaders, getHeader]
    have hpresented' : Presented settings request' wallet t' := by
      constructor
      · exact hpresented.configured
      · simpa only [hsame] using hpresented.given
      · rw [hsame, hpresented.stamped]
      · rw [hsame, hpresented.nonce]
      · rw [hsame, hpresented.signer]
      · exact hpresented.owner
    have hkey : replayKey settings wallet request' = replayKey settings wallet request := by
      simp only [replayKey, hsame]
    have hnoted : Noted (replayKey settings wallet request) a
        (state.after settings ⟨a, request⟩) := by
      left
      refine ⟨(replayKey settings wallet request, a), ?_, rfl, le_rfl⟩
      rw [hused]
      exact List.mem_append_right _ List.mem_cons_self
    have hlate : a + authorizationWindowMs < b := (hnoted.run hrun).late hkey hpresented' hagain
    obtain ⟨wallet'', t'', hpresented'', ⟨-, hstands⟩, -⟩ := canActivate_ok.1 hagain.2
    obtain rfl : t'' = t' :=
      Option.some.inj (hpresented''.stamped.symm.trans hpresented'.stamped)
    omega
  · intro hahead
    -- the second call comes at the last moment of the window of the stamp
    have hlast : InWindow (t' + authorizationWindowMs) t' := by
      constructor
      · rw [authorizationWindowMs, clockToleranceMs]
        omega
      · omega
    refine ⟨[], state.after settings ⟨a, request⟩, t' + authorizationWindowMs, request, rfl,
      .nil _, ?_, ?_⟩
    · show a ≤ t' + authorizationWindowMs
      rw [authorizationWindowMs]
      omega
    · apply canActivate_ok.2
      refine ⟨wallet, t', hpresented, hlast, hsigned, ?_⟩
      intro entry hentry hkey
      rw [hused] at hentry
      rcases List.mem_append.1 hentry with hpruned | hnew
      · obtain ⟨hold, hrecent⟩ := List.mem_filter.1 hpruned
        have hforgotten := hunused entry hold hkey
        have hrecent := of_decide_eq_true hrecent
        exact absurd hforgotten hrecent
      · obtain rfl := List.mem_singleton.1 hnew
        show a < t' + authorizationWindowMs - authorizationWindowMs
        omega

end Guard

/-! ## A stamp ahead of the clock -/

/-- Keys are their texts, and every signature of the right length is good. -/
def plainSettings : AdminSettings String where
  platformOwner := some "platform"
  timestampMs := Decimal.ofInteger?
  publicKey := some
  toBase58 := id
  sha256 := id
  base64 text := text.toList.map fun _ ↦ 0
  verify _ _ _ := true

def aheadRequest : SignedAdminRequest where
  body := "\x7b\x7d"
  headers name :=
    if name = "x-admin-wallet" then some (.one "platform")
    else if name = "x-admin-timestamp" then some (.one "20000")
    else if name = "x-admin-nonce" then some (.one "0123456789abcdef")
    else some (.one "0123456789abcdef0123456789abcdef0123456789abcdef0123456789abcdef")
  method := "POST"
  originalUrl := "/trusted-issuers"

/-- A request that is stamped ahead of the clock of the guard is accepted twice. -/
theorem ahead_accepted_again : ∃ calls later b request',
    request'.headers = aheadRequest.headers ∧
      Run (GuardStep plainSettings)
        (GuardState.after plainSettings ⟨[], 0⟩ ⟨0, aheadRequest⟩) calls later ∧
        Accepts plainSettings later b request' := by
  have haccepted : Accepts plainSettings ⟨[], 0⟩ 0 aheadRequest := by
    refine ⟨le_rfl, ?_⟩
    decide +kernel
  exact (accepted_again_iff (t := 20000) (by decide +kernel) haccepted).2 (by decide)

end Fracks.Backend
