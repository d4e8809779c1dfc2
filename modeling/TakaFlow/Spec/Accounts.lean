import TakaFlow.Accounts
import TakaFlow.Spec.Requests

/-!
# What registration, freezing and closing commit
-/

namespace TakaFlow

open Txn

variable {watched : Token → Prop} {may : ℕ → Database → Token → Prop}

/-! ### Registration -/

def newUser (id : Uuid) (input : RegisterInput) (now : Timestamp) : User :=
  { id
    phone := input.phone
    name := input.name
    passwordHash := input.passwordHash
    pinHash := input.pinHash
    createdAt := now }

def newAccount (id userId : Uuid) : Account :=
  { id, userId := some userId, type := .user, status := .active, balanceMinor := 0 }

/-- The commit of a registration. -/
structure Registered (P : Platform) (now : Timestamp) (input : RegisterInput) (user : User)
    (account : Account) (m : Movement) (x y z : Database) : Prop where
  phone : x.userByPhone input.phone = none
  userUnused : x.users.has user.id = false
  accountUnused : x.accounts.has account.id = false
  userRow : user = newUser user.id input now
  accountRow : account = newAccount account.id user.id
  enabled : m.Enabled ((x.insertUser user).insertAccount account)
  stripe : m.sender.id ∈ treasuryAccountIds
  executes : m.Executes
    { fromAccountId := m.sender.id
      toAccountId := account.id
      amountMinor := P.config.signupBonusMinor
      type := .mint
      note := some "Welcome bonus" } now
  notes : Notes now [⟨.userRegistered, "user", user.id, amountText P.config.signupBonusMinor⟩]
    (m.apply ((x.insertUser user).insertAccount account)) y
  session : ∃ token, z = y.insertToken token

/-- A new account is shielded by the token of its identifier. -/
lemma shields_insertAccount {held : List Token} {v : Database → Database} {r : Account}
    (hv : ∀ d, (v d).accounts = d.accounts.insert r) (hl : .fresh .accounts r.id ∈ held) :
    Shields watched may held v := by
  intro id a d d' hr h
  simp only [hv, Table.get?_insert] at h ⊢
  cases hd : d.accounts.get? id with
  | some b =>
    rw [hr.2 (.account id) List.mem_cons_self (excl_of_lock rfl) b hd]
    rwa [hd] at h
  | none =>
    rw [hd, Option.none_or] at h
    split at h
    · rename_i hid
      have hnone := hr.2 (.fresh .accounts r.id) (List.mem_cons_of_mem _ hl) (excl_of_lock rfl)
        ((Table.has_eq_false _ _).mpr (hid ▸ hd))
      rw [(Table.has_eq_false _ _).mp (hid ▸ hnone), Option.none_or, if_pos hid]
      exact h
    · cases h

lemma wp_register {P : Platform} {input : RegisterInput} {context : RequestContext} {now : ℕ}
    {d : Database} :
    wp (discipline watched may) (register P input context)
      (Commits (discipline watched may) fun _ hs x z => (∃ user account m y,
        Registered P now input user account m x y z) ∧ Published hs z)
      (fun _ _ _ => True) (.start now) d := by
  have hR := (Throws.of_true (ε := Error) (Ctx.start now : Ctx Database Token Hook)
    fun _ => True).map translateDuplicate
  simp only [register, wp_tryCatch, wp_throw, Program.bind_eq, Program.pure_eq, wp_bind]
  refine wp_insertUnique hR (Doing.begin watched may now d).toProgress
    ((below_nil 0).mayWait rfl) (fun x => framed_insertUser (by simp) (by simp))
    (.inl ⟨_, rfl⟩) fun c d x hd hphone hunused => ?_
  have hd : Doing watched may _ _ c d _ _ _ _ := ⟨hd, .id, (grows_insertUser _).comp .id⟩
  have hd := hd.learn (F := fun d => d.userByPhone input.phone = none)
    (stable_agree (l := .phone input.phone) (by simp) rfl fun _ _ ha h => ha h)
    (by simpa using hphone)
  have hd := hd.learn (stable_unused Adds.id (t := .users) (i := x.uuid) (by simp))
    (by simpa using hunused)
  refine wp_insertRow grows_insertAccount (fun _ => framed_insertAccount (by simp)) hR hd
    fun c d y hd => ?_
  refine wp_dateNow hd fun t₁ x₁ _ => ?_
  refine wp_postDoubleEntry hR hd (by simp [Token.rank])
    (shields_insertAccount (r := newAccount y.uuid x.uuid) (fun _ => rfl) (by simp [newAccount]))
    (by rintro ⟨⟩) (by rintro ⟨⟩) fun c d m l' hm hd => ?_
  have hn := hd.noting
  refine hn.enqueueEvent hR fun c d e hn => ?_
  refine hn.trackWrite hR fun c d hn => ?_
  refine hn.insertAuditLog hR fun c d a hn => ?_
  obtain ⟨l, w, hs, F, hd, honly, hF⟩ := hn
  refine wp_dateNow hd fun t₂ x₂ _ => ?_
  simp only [issueSession, Program.bind_eq, Program.pure_eq, wp_bind]
  refine wp_dateNow hd fun t₃ x₃ _ => ?_
  refine wp_insertRow grows_insertToken (fun _ => framed_insertToken (by simp)) hR hd
    fun c d x₄ hd => ?_
  simp only [wp_ret]
  refine hd.toProgress.commits rfl fun d hp =>
    ⟨⟨⟨newUser x.uuid input now, newAccount y.uuid x.uuid, m, w d, ?_⟩, ?_⟩, hd.grows.later d⟩
  all_goals obtain ⟨⟨⟨⟨⟨-, hphone⟩, huser⟩, haccount⟩, henabled, -⟩, hnotes⟩ := hF d hp.1
  rotate_left
  · exact ((Movement.published henabled).only honly).congr hnotes.accounts
  have hsender : m.sender.id = pickTreasuryStripe x₁.stripe := hm.sender
  exact
    { phone := hphone
      userUnused := huser
      accountUnused := haccount
      userRow := rfl
      accountRow := rfl
      enabled := henabled
      stripe := hsender ▸ pickTreasuryStripe_mem _
      executes := { hm with sender := rfl }
      notes := hnotes
      session := ⟨_, rfl⟩ }

/-! ### Freezing and closing -/

/-- The commit of an owner's `setOwnFreeze`: the status is set, unless it is set already. -/
inductive OwnFreeze (now : Timestamp) (userId : Uuid) (frozen : Bool) :
    Database → Database → Prop where
  | same {x : Database} {account : Account} (owner : Owns userId account.id x)
      (found : x.accounts.get? account.id = some account)
      (status : account.status = if frozen then .frozen else .active) :
      OwnFreeze now userId frozen x x
  | set {x y : Database} {account : Account} (owner : Owns userId account.id x)
      (found : x.accounts.get? account.id = some account) (notClosed : account.status ≠ .closed)
      (notes : Notes now [⟨if frozen then .accountFrozen else .accountUnfrozen, "account",
        account.id, none⟩]
        (x.setAccount (account.withStatus (if frozen then .frozen else .active))) y) :
      OwnFreeze now userId frozen x y

/-- The commit of an operator's `setAccountStatus`. -/
structure StatusSet (now : Timestamp) (userId : Uuid) (status : OperatorStatus) (account : Account)
    (x y : Database) : Prop where
  owner : Owns userId account.id x
  found : x.accounts.get? account.id = some account
  notClosed : account.status ≠ .closed
  notes : Notes now [] (x.setAccount (account.withStatus status.status)) y

/-- The commit of a console that closes the account of a user, if there is one. -/
inductive Closed (userId : Uuid) : Database → Database → Prop where
  | none {x : Database} : Closed userId x x
  | set {x : Database} {account : Account} (owner : Owns userId account.id x)
      (found : x.accounts.get? account.id = some account) :
      Closed userId x (x.setAccount { account with status := .closed })

section rules

variable {c₀ c : Ctx Database Token Hook} {P₀ P : Database → Prop} {d : Database}
  {l : List Token} {w : Database → Database} {hs : List Hook}
  {R : Error → Ctx Database Token Hook → Database → Prop}

/-- The account of a user, locked. -/
lemma wp_selectAccountOfUserForUpdate {userId : Uuid}
    {Q : Option Account → Ctx Database Token Hook → Database → Prop}
    (hR : Throws R c₀ P₀) (h : Doing watched may c₀ P₀ c d l w hs P)
    (hsame : ∀ d, (w (c₀.write d)).accounts = d.accounts) (hbelow : Below 4 (l ++ c₀.tokens))
    (hnone : ∀ d, Doing watched may c₀ P₀ c d l w hs P → Q none c d)
    (hsome : ∀ c d a, Doing watched may c₀ P₀ c d (.account a.id :: l) w hs (fun d => P d ∧
      Owns userId a.id d ∧ d.accounts.get? a.id = some a) → Q (some a) c d) :
    wp (discipline watched may) (query (selectAccountOfUserForUpdate userId)) Q R c d := by
  refine wp_lock hR h (fun d a _ _ => .inr ?_) (fun d hd _ => hnone d hd) fun c d a hd hf => ?_
  · exact (hbelow.mono (Nat.le_add_right 4 a.id)).mayWait rfl
  · rw [Database.accountOf, hsame] at hf
    have howns := owns_of_accountOf (d := d) hf
    refine hsome c d a (hd.learn ((stable_owns _ _).and (stable_agree (l := .account a.id)
      (by simp) rfl fun _ _ ha h => ha a h)) ⟨howns, ?_⟩)
    exact Table.get?_of_mem (List.mem_of_find?_eq_some hf)

/-- A status is changed on the locked row. -/
lemma wp_updateAccountStatus {a : Account} {status : AccountStatus}
    {Q : Option Account → Ctx Database Token Hook → Database → Prop}
    (hR : Throws R c₀ P₀) (h : Doing watched may c₀ P₀ c d l w hs P)
    (hrow : ∀ d, P d → (w (c₀.write d)).accounts.get? a.id = some a) (hl : .account a.id ∈ l)
    (hk : ∀ c d, Doing watched may c₀ P₀ c d (.account a.id :: l)
      ((fun d => d.setAccount (a.withStatus status)) ∘ w) hs P →
      Q (some (a.withStatus status)) c d) :
    wp (discipline watched may) (query (updateAccountStatus a.id status)) Q R c d := by
  refine wp_updateRow hR h (fun d r hp hr => .inl ?_) (fun d r hp hr => ?_) grows_setAccount
    (fun d hd hr => ?_) fun c d r hd hr => ?_
  · cases (hrow d hp).symm.trans hr
    exact ⟨List.mem_append_left _ hl, rfl⟩
  · exact framed_setAccount List.mem_cons_self
  · cases (hrow d hd.holds).symm.trans hr
  · cases (hrow d hd.holds).symm.trans hr
    exact hk c d hd

end rules

lemma wp_setOwnFreeze {userId : Uuid} {frozen : Bool} {context : RequestContext} {now : ℕ}
    {d : Database} :
    wp (discipline watched may) (setOwnFreeze userId frozen context)
      (Commits (discipline watched may) fun _ hs x y =>
        OwnFreeze now userId frozen x y ∧ Published hs y)
      (fun _ _ _ => True) (.start now) d := by
  have hR := Throws.of_true (ε := Error) (Ctx.start now : Ctx Database Token Hook) fun _ => True
  simp only [setOwnFreeze, Program.bind_eq, Program.pure_eq, wp_bind]
  refine wp_selectAccountOfUserForUpdate hR (.begin watched may now d) (fun _ => rfl) (by simp)
    (fun d hd => wp_orFail hR hd nofun) fun c d a hd => ?_
  refine wp_orFail hR hd fun _ he => ?_
  cases he
  refine wp_require hR hd fun hclosed => ?_
  by_cases hstatus : a.status = if frozen then .frozen else .active
  · rw [if_pos hstatus]
    exact hd.toProgress.commits rfl fun d hp =>
      ⟨⟨.same hp.2.1 hp.2.2 hstatus, .nil d⟩, Later.refl d⟩
  · rw [if_neg hstatus]
    simp only [wp_bind]
    refine wp_updateAccountStatus hR hd (fun d hp => hp.2.2) (by simp) fun c d hd => ?_
    refine hd.noting.enqueueEvent hR fun c d e hn => ?_
    refine hn.insertAuditLog hR fun c d r hn => ?_
    exact hn.commits rfl fun d y _ honly hp hnotes =>
      ⟨.set hp.2.1 hp.2.2 hclosed hnotes, (Published.nil y).only honly⟩

lemma wp_setAccountStatus {userId : Uuid} {status : OperatorStatus} {reason : Option String}
    {actorLabel : String} {context : RequestContext} {now : ℕ} {d : Database} :
    wp (discipline watched may) (setAccountStatus userId status reason actorLabel context)
      (Commits (discipline watched may) fun _ hs x y =>
        (∃ account, StatusSet now userId status account x y) ∧ Published hs y)
      (fun _ _ _ => True) (.start now) d := by
  have hR := Throws.of_true (ε := Error) (Ctx.start now : Ctx Database Token Hook) fun _ => True
  simp only [setAccountStatus, Program.bind_eq, Program.pure_eq, wp_bind]
  refine wp_selectAccountOfUserForUpdate hR (.begin watched may now d) (fun _ => rfl) (by simp)
    (fun d hd => wp_orFail hR hd nofun) fun c d a hd => ?_
  refine wp_orFail hR hd fun _ he => ?_
  cases he
  refine wp_require hR hd fun hclosed => ?_
  refine wp_updateAccountStatus hR hd (fun d hp => hp.2.2) (by simp) fun c d hd => ?_
  refine hd.noting.insertAuditLog hR fun c d r hn => ?_
  obtain ⟨l, w, hs, F, hd, honly, hF⟩ := hn
  refine wp_read hR hd fun d hd => ?_
  split
  · trivial
  · refine hd.toProgress.commits rfl fun d hf =>
      ⟨⟨⟨a, ?_⟩, (Published.nil _).only honly⟩, hd.grows.later d⟩
    obtain ⟨⟨-, howner, hfound⟩, hnotes⟩ := hF d hf
    exact ⟨howner, hfound, hclosed, hnotes⟩

lemma wp_closeAccount {userId : Uuid} {now : ℕ} {d : Database} :
    wp (discipline watched may) (closeAccount userId)
      (Commits (discipline watched may) fun _ hs x y => Closed userId x y ∧ Published hs y)
      (fun _ _ _ => True) (.start now) d := by
  have hR := Throws.of_true (ε := Error) (Ctx.start now : Ctx Database Token Hook) fun _ => True
  simp only [closeAccount, Program.bind_eq, Program.pure_eq, wp_bind, wp_ret]
  refine wp_updateRow hR (.begin watched may now d) (fun d r _ _ => .inr ?_) (fun d r _ _ => ?_)
    grows_setAccount (fun d hd hr => ?_) fun c d r hd hr => ?_
  · exact Below.mayWait (n := 4 + r.id) (by simp) rfl
  · exact framed_setAccount List.mem_cons_self
  · exact hd.toProgress.commits rfl fun d _ => ⟨⟨.none, .nil d⟩, Later.refl d⟩
  · have hd := hd.learn ((stable_owns userId r.id).and (stable_agree (l := .account r.id)
      (by simp) rfl fun _ _ ha h => ha r h))
      ⟨owns_of_accountOf hr, Table.get?_of_mem (List.mem_of_find?_eq_some hr)⟩
    refine hd.toProgress.commits rfl fun d hp => ⟨⟨.set hp.2.1 hp.2.2, .nil _⟩, ?_⟩
    exact (grows_setAccount _).later d

end TakaFlow
