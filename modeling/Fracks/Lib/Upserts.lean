import Mathlib.Data.List.Perm.Basic
import Mathlib.Logic.Function.Basic
import Mathlib.Tactic.Common

/-!
# Upserts

A post inserts a record under its key, or merges it into the record that is there.  Where later
records lie over earlier ones, the order of the posts is irrelevant exactly if any two records
under one key lie over each other the same way round as the other.
-/

namespace Upserts

variable {α κ ρ : Type*} [DecidableEq κ]

/-- Records that lie over each other: what a later one leaves of an earlier one, and what the
two leave of a third, is the same, and no third one hides how two differ. -/
structure Overlay (merge : ρ → ρ → ρ) : Prop where
  assoc : ∀ r s t, merge (merge r s) t = merge r (merge s t)
  cancel : ∀ r s t, merge (merge r s) t = merge (merge r t) s → merge s t = merge t s

/-- The table after a record is posted under a key. -/
def upsert (merge : ρ → ρ → ρ) (T : κ → Option ρ) (k : κ) (r : ρ) : κ → Option ρ :=
  Function.update T k (some ((T k).elim r fun old ↦ merge old r))

/-- The table after a call, which posts a record or nothing. -/
def post (merge : ρ → ρ → ρ) (f : α → Option (κ × ρ)) (T : κ → Option ρ) (a : α) : κ → Option ρ :=
  (f a).elim T fun entry ↦ upsert merge T entry.1 entry.2

def postAll (merge : ρ → ρ → ρ) (f : α → Option (κ × ρ)) (T : κ → Option ρ) (as : List α) :
    κ → Option ρ :=
  as.foldl (post merge f) T

variable {merge : ρ → ρ → ρ} {f : α → Option (κ × ρ)} {T : κ → Option ρ} {k : κ} {r s : ρ} {a b : α}
  {as : List α}

theorem upsert_self : upsert merge T k r k = some ((T k).elim r fun old ↦ merge old r) :=
  Function.update_self ..

theorem upsert_of_ne {k' : κ} (h : k' ≠ k) : upsert merge T k r k' = T k' :=
  Function.update_of_ne h ..

theorem post_eq (h : f a = some (k, r)) : post merge f T a = upsert merge T k r := by
  rw [post, h]
  rfl

theorem post_none (h : f a = none) : post merge f T a = T := by
  rw [post, h]
  rfl

/-- Two posts under one key commute exactly if their records do. -/
theorem upsert_comm_iff (hmerge : Overlay merge) :
    upsert merge (upsert merge T k r) k s = upsert merge (upsert merge T k s) k r ↔
      merge r s = merge s r := by
  have hat (r s : ρ) : upsert merge (upsert merge T k r) k s k =
      some (merge ((T k).elim r fun old ↦ merge old r) s) := by
    rw [upsert_self, upsert_self]
    rfl
  constructor
  · intro h
    have hkey := congrFun h k
    rw [hat, hat, Option.some.injEq] at hkey
    cases hT : T k with
    | none => rwa [hT] at hkey
    | some old =>
        rw [hT] at hkey
        exact hmerge.cancel old r s hkey
  · intro h
    funext k'
    by_cases hk : k' = k
    · subst hk
      rw [hat, hat]
      cases T k' with
      | none => exact congrArg some h
      | some old =>
          have hleft : merge (merge old r) s = merge old (merge r s) := hmerge.assoc old r s
          have hright : merge (merge old s) r = merge old (merge s r) := hmerge.assoc old s r
          exact congrArg some (by rw [Option.elim_some, Option.elim_some, hleft, hright, h])
    · rw [upsert_of_ne hk, upsert_of_ne hk, upsert_of_ne hk, upsert_of_ne hk]

/-- Posts under different keys commute. -/
theorem upsert_comm_of_ne {k' : κ} (h : k ≠ k') :
    upsert merge (upsert merge T k r) k' s = upsert merge (upsert merge T k' s) k r := by
  have hleft : upsert merge T k r k' = T k' := upsert_of_ne h.symm
  have hright : upsert merge T k' s k = T k := upsert_of_ne h
  rw [upsert, hleft, upsert, upsert, hright, upsert, Function.update_comm h]

theorem post_comm (hmerge : Overlay merge)
    (h : ∀ k r s, f a = some (k, r) → f b = some (k, s) → merge r s = merge s r) :
    post merge f (post merge f T a) b = post merge f (post merge f T b) a := by
  cases ha : f a with
  | none => rw [post_none ha, post_none ha]
  | some entry =>
      cases hb : f b with
      | none => rw [post_none hb, post_none hb]
      | some entry' =>
          obtain ⟨k, r⟩ := entry
          obtain ⟨k', s⟩ := entry'
          rw [post_eq ha, post_eq hb, post_eq hb, post_eq ha]
          by_cases hk : k = k'
          · subst hk
            exact (upsert_comm_iff hmerge).2 (h k r s ha hb)
          · exact upsert_comm_of_ne hk

/-- Two different calls of a list may be made last. -/
theorem exists_perm_last (ha : a ∈ as) (hb : b ∈ as) (hne : a ≠ b) :
    ∃ rest, (rest ++ [a, b]).Perm as := by
  classical
  refine ⟨(as.erase a).erase b, ?_⟩
  have hb' : b ∈ as.erase a := (List.mem_erase_of_ne hne.symm).2 hb
  have hfirst : (a :: b :: (as.erase a).erase b).Perm (a :: as.erase a) :=
    .cons a (List.perm_cons_erase hb').symm
  have hall : (a :: as.erase a).Perm as := (List.perm_cons_erase ha).symm
  exact List.perm_append_comm.trans (hfirst.trans hall)

/-- The order of all calls is irrelevant exactly if any two records that they post under one key
commute. -/
theorem postAll_perm_iff (hmerge : Overlay merge) :
    (∀ bs, bs.Perm as → postAll merge f T bs = postAll merge f T as) ↔
      ∀ a ∈ as, ∀ b ∈ as, ∀ k r s, f a = some (k, r) → f b = some (k, s) →
        merge r s = merge s r := by
  constructor
  · intro hperm a ha b hb k r s har hbs
    by_cases hab : a = b
    · subst hab
      rw [har, Option.some.injEq, Prod.mk.injEq] at hbs
      rw [hbs.2]
    · obtain ⟨rest, hrest⟩ := exists_perm_last ha hb hab
      have hswap : (rest ++ [b, a]).Perm as :=
        ((List.Perm.swap a b []).append_left rest).trans hrest
      have hsame : postAll merge f T (rest ++ [a, b]) = postAll merge f T (rest ++ [b, a]) :=
        (hperm _ hrest).trans (hperm _ hswap).symm
      simp only [postAll, List.foldl_append, List.foldl_cons, List.foldl_nil, post_eq har,
        post_eq hbs] at hsame
      exact (upsert_comm_iff hmerge).1 hsame
  · intro hcomm bs hperm
    refine (hperm.symm.foldl_eq' ?_ T).symm
    intro a ha b hb T'
    exact post_comm hmerge fun k r s har hbs ↦ hcomm a ha b hb k r s har hbs

/-! ## Records with a part that stays -/

section Beside

variable {σ δ : Type*}

/-- What calls post when only `h` is read off their records. -/
def posting (h : ρ → σ) (f : α → Option (κ × ρ)) (a : α) : Option (κ × σ) :=
  (f a).map fun entry ↦ (entry.1, h entry.2)

omit [DecidableEq κ] in
theorem posting_eq_some {h : ρ → σ} {t : σ} :
    posting h f a = some (k, t) ↔ ∃ r, f a = some (k, r) ∧ h r = t := by
  simp only [posting, Option.map_eq_some_iff, Prod.mk.injEq, Prod.exists]
  constructor
  · rintro ⟨_, r, hr, rfl, ht⟩
    exact ⟨r, hr, ht⟩
  · rintro ⟨r, hr, ht⟩
    exact ⟨k, r, hr, rfl, ht⟩

/-- What is read off the records of a table is read off what is posted. -/
theorem postAll_map {merge' : σ → σ → σ} {h : ρ → σ}
    (hmerge : ∀ r s, h (merge r s) = merge' (h r) (h s)) :
    (fun k ↦ (postAll merge f T as k).map h) =
      postAll merge' (posting h f) (fun k ↦ (T k).map h) as := by
  induction as generalizing T with
  | nil => rfl
  | cons a as ih =>
      have hstep : (fun k ↦ (post merge f T a k).map h) =
          post merge' (posting h f) (fun k ↦ (T k).map h) a := by
        cases ha : f a with
        | none => rw [post_none ha, post_none (by rw [posting, ha]; rfl)]
        | some entry =>
            obtain ⟨k, r⟩ := entry
            rw [post_eq ha, post_eq (posting_eq_some.2 ⟨r, ha, rfl⟩)]
            funext k'
            by_cases hk : k' = k
            · subst hk
              rw [upsert_self, upsert_self]
              cases T k' with
              | none => rfl
              | some old => exact congrArg some (hmerge old r)
            · rw [upsert_of_ne hk, upsert_of_ne hk]
      have hrest := ih (T := post merge f T a)
      rw [hstep] at hrest
      exact hrest

/-- Where the first record stays, it is there once it was posted. -/
theorem postAll_keep_of_some (h : T k = some r) : postAll (fun r _ ↦ r) f T as k = some r := by
  induction as generalizing T with
  | nil => exact h
  | cons a as ih =>
      apply ih (T := post (fun r _ ↦ r) f T a)
      cases ha : f a with
      | none => rw [post_none ha, h]
      | some entry =>
          obtain ⟨k', s⟩ := entry
          rw [post_eq ha]
          by_cases hk : k = k'
          · subst hk
            rw [upsert_self, h]
            rfl
          · rw [upsert_of_ne hk, h]

theorem postAll_keep_cons (hT : T k = none) (ha : f a = some (k, r)) :
    postAll (fun r _ ↦ r) f T (a :: as) k = some r := by
  apply postAll_keep_of_some (T := post (fun r _ ↦ r) f T a)
  rw [post_eq ha, upsert_self, hT]
  rfl

/-- The records posted under a key that was empty are all the same. -/
def Alike (f : α → Option (κ × ρ)) (T : κ → Option ρ) (as : List α) : Prop :=
  ∀ a ∈ as, ∀ b ∈ as, ∀ k r s, f a = some (k, r) → f b = some (k, s) → T k = none → r = s

/-- Alike records stay, whatever is posted before and after them. -/
theorem post_keep_comm (h : ∀ k r s, f a = some (k, r) → f b = some (k, s) → T k = none → r = s) :
    post (fun r _ ↦ r) f (post (fun r _ ↦ r) f T a) b =
      post (fun r _ ↦ r) f (post (fun r _ ↦ r) f T b) a := by
  cases ha : f a with
  | none => rw [post_none ha, post_none ha]
  | some entry =>
      cases hb : f b with
      | none => rw [post_none hb, post_none hb]
      | some entry' =>
          obtain ⟨k, r⟩ := entry
          obtain ⟨k', s⟩ := entry'
          rw [post_eq ha, post_eq hb, post_eq hb, post_eq ha]
          by_cases hk : k = k'
          · subst hk
            funext x
            by_cases hx : x = k
            · subst hx
              rw [upsert_self, upsert_self, upsert_self, upsert_self]
              cases hT : T x with
              | none => exact congrArg some (h x r s ha hb hT)
              | some old => rfl
            · rw [upsert_of_ne hx, upsert_of_ne hx, upsert_of_ne hx, upsert_of_ne hx]
          · exact upsert_comm_of_ne hk

/-- Where the first record stays, the order of all calls is irrelevant exactly if the records
posted under an empty key are alike. -/
theorem postAll_keep_perm_iff :
    (∀ bs, bs.Perm as → postAll (fun r _ ↦ r) f T bs = postAll (fun r _ ↦ r) f T as) ↔
      Alike f T as := by
  classical
  constructor
  · intro hperm a ha b hb k r s har hbs hT
    have hfirst := hperm _ (List.perm_cons_erase ha).symm
    have hsecond := hperm _ (List.perm_cons_erase hb).symm
    have hsame := congrFun (hfirst.trans hsecond.symm) k
    rw [postAll_keep_cons hT har, postAll_keep_cons hT hbs, Option.some.injEq] at hsame
    exact hsame
  · intro halike bs hperm
    induction hperm generalizing T with
    | nil => rfl
    | @cons a bs as _ ih =>
        refine ih (T := post (fun r _ ↦ r) f T a) ?_
        intro b hb c hc k r s hbr hcs hT
        have hbefore : T k = none := by
          by_contra hne
          obtain ⟨old, hold⟩ := Option.ne_none_iff_exists'.1 hne
          have hkept : postAll (fun r _ ↦ r) f T [a] k = some old := postAll_keep_of_some hold
          exact absurd (hkept.symm.trans hT) (by simp)
        exact halike b (List.mem_cons_of_mem a hb) c (List.mem_cons_of_mem a hc) k r s hbr hcs
          hbefore
    | swap a b as =>
        have hswap : post (fun r _ ↦ r) f (post (fun r _ ↦ r) f T b) a =
            post (fun r _ ↦ r) f (post (fun r _ ↦ r) f T a) b :=
          post_keep_comm fun k r s hbr has hT ↦
            halike b (.tail a (.head as)) a (.head _) k r s hbr has hT
        exact congrArg (fun T ↦ postAll (fun r _ ↦ r) f T as) hswap
    | trans hleft hright ihleft ihright =>
        refine (ihleft ?_).trans (ihright halike)
        exact fun a ha b hb ↦ halike a (hright.subset ha) b (hright.subset hb)

/-- Records whose first part is merged while the second stays. -/
def beside (merge : ρ → ρ → ρ) (p q : ρ × δ) : ρ × δ := (merge p.1 q.1, p.2)

omit [DecidableEq κ] in
/-- Two tables are the same if both parts of their records are. -/
theorem tables_eq_iff {x y : κ → Option (ρ × δ)} : x = y ↔
    (fun k ↦ (x k).map Prod.fst) = (fun k ↦ (y k).map Prod.fst) ∧
      (fun k ↦ (x k).map Prod.snd) = fun k ↦ (y k).map Prod.snd := by
  constructor
  · rintro rfl
    exact ⟨rfl, rfl⟩
  · rintro ⟨hleft, hright⟩
    funext k
    have hfirst := congrFun hleft k
    have hsecond := congrFun hright k
    cases hx : x k <;> cases hy : y k <;> simp_all [Prod.ext_iff]

/-- The order of all calls is irrelevant exactly if the merged parts of any two records under one
key commute and those that stay are alike where the key was empty. -/
theorem postAll_beside_perm_iff {f : α → Option (κ × (ρ × δ))} {T : κ → Option (ρ × δ)}
    (hmerge : Overlay merge) :
    (∀ bs, bs.Perm as → postAll (beside merge) f T bs = postAll (beside merge) f T as) ↔
      ∀ a ∈ as, ∀ b ∈ as, ∀ k p q, f a = some (k, p) → f b = some (k, q) →
        merge p.1 q.1 = merge q.1 p.1 ∧ (T k = none → p.2 = q.2) := by
  have hfst (bs : List α) : (fun k ↦ (postAll (beside merge) f T bs k).map Prod.fst) =
      postAll merge (posting Prod.fst f) (fun k ↦ (T k).map Prod.fst) bs :=
    postAll_map fun _ _ ↦ rfl
  have hsnd (bs : List α) : (fun k ↦ (postAll (beside merge) f T bs k).map Prod.snd) =
      postAll (fun d _ ↦ d) (posting Prod.snd f) (fun k ↦ (T k).map Prod.snd) bs :=
    postAll_map fun _ _ ↦ rfl
  have hboth : (∀ bs, bs.Perm as → postAll (beside merge) f T bs = postAll (beside merge) f T as) ↔
      (∀ bs, bs.Perm as → postAll merge (posting Prod.fst f) (fun k ↦ (T k).map Prod.fst) bs =
        postAll merge (posting Prod.fst f) (fun k ↦ (T k).map Prod.fst) as) ∧
      ∀ bs, bs.Perm as → postAll (fun d _ ↦ d) (posting Prod.snd f) (fun k ↦ (T k).map Prod.snd)
        bs = postAll (fun d _ ↦ d) (posting Prod.snd f) (fun k ↦ (T k).map Prod.snd) as := by
    simp only [tables_eq_iff, hfst, hsnd]
    exact ⟨fun h ↦ ⟨fun bs hbs ↦ (h bs hbs).1, fun bs hbs ↦ (h bs hbs).2⟩,
      fun h bs hbs ↦ ⟨h.1 bs hbs, h.2 bs hbs⟩⟩
  rw [hboth, postAll_perm_iff hmerge, postAll_keep_perm_iff]
  constructor
  · rintro ⟨hcomm, halike⟩ a ha b hb k p q hap hbq
    refine ⟨hcomm a ha b hb k _ _ (posting_eq_some.2 ⟨p, hap, rfl⟩)
      (posting_eq_some.2 ⟨q, hbq, rfl⟩), fun hT ↦ ?_⟩
    exact halike a ha b hb k _ _ (posting_eq_some.2 ⟨p, hap, rfl⟩)
      (posting_eq_some.2 ⟨q, hbq, rfl⟩) (Option.map_eq_none_iff.2 hT)
  · intro h
    constructor
    · intro a ha b hb k r s har hbs
      obtain ⟨p, hap, rfl⟩ := posting_eq_some.1 har
      obtain ⟨q, hbq, rfl⟩ := posting_eq_some.1 hbs
      exact (h a ha b hb k p q hap hbq).1
    · intro a ha b hb k d e had hbe hT
      obtain ⟨p, hap, rfl⟩ := posting_eq_some.1 had
      obtain ⟨q, hbq, rfl⟩ := posting_eq_some.1 hbe
      exact (h a ha b hb k p q hap hbq).2 (Option.map_eq_none_iff.1 hT)

end Beside

end Upserts
