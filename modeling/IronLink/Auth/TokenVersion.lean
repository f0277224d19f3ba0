import IronLink.Auth.Account
import IronLink.Lib.Run

/-!
# Revocation by `token_version`

`token_version` is the only thing that revokes an access token. `verify` and
`set_user_status` both read the row, add one and write the result back as a
literal; the transactions run at READ COMMITTED, so they overlap freely.

Results:
* `token_survives_overlap`: of two overlapping logins both get the same version,
  so the first token outlives the second login.
* `tokens_revoked_of_freshCommit`: as long as every login and every suspension
  commits on the version it read, a token minted by a login is accepted only
  until the next login or suspension of the user commits, whatever activations
  follow.
-/

namespace IronLink.Auth

open Lib

/-! ## Model -/

/-- A transaction between its read and its commit; `read` is the row it read. -/
inductive AccountTx
  | login (read : User) (body : VerifyIn)
  | status (read : User) (action : StatusAction)

/-- What has committed. A login hands out its token. -/
inductive Committed
  | login (user : UUID) (token : AccessToken)
  | suspend (user : UUID)
  | activate (user : UUID)

/-- A commit that is to end every earlier token of `user`. -/
def Committed.kills (user : UUID) : Committed → Bool
  | .login u _ => u = user
  | .suspend u => u = user
  | .activate _ => false

/-- The database and the transactions in flight; `history` is newest first. -/
structure AccountState where
  now : Time
  users : Users
  txs : List AccountTx
  history : List Committed

/-- The largest value of an `INTEGER` column. -/
def int4Max : ℤ := 2147483647

inductive AccountAction
  /-- `POST /auth/verify` up to its read -/
  | verify (body : VerifyIn)
  /-- the rest of the `i`-th transaction, a login; the OTP and military id
      checks have answered `otpOk` and `milOk` -/
  | verifyCommit (i : ℕ) (otpOk milOk : Bool)
  /-- `POST /admin/users/{user_id}/status` up to its read -/
  | setUserStatus (creds : Option AccessToken) (userId : UUID) (action : StatusAction)
  /-- the commit of the `i`-th transaction, a status change -/
  | statusCommit (i : ℕ)
  | tick (d : ℕ)

/-- The `UPDATE` and the commit of one transaction. The ORM fails when the row
    is gone, PostgreSQL when `token_version` no longer fits its column. -/
def AccountState.commit (s : AccountState) (i : ℕ) (id : UUID) (f : User → User)
    (record : Committed) : AccountState :=
  match s.users.byId id with
  | none => { s with txs := s.txs.eraseIdx i }
  | some row =>
    if (f row).tokenVersion > int4Max then { s with txs := s.txs.eraseIdx i }
    else
      { s with
        users := Table.modify User.id s.users id f
        txs := s.txs.eraseIdx i
        history := record :: s.history }

def accountStep (s : AccountState) : AccountAction → Option AccountState
  | .verify body =>
    match verifyRead s.users s.now body with
    | .error _ => some s
    | .ok user => some { s with txs := s.txs ++ [.login user body] }
  | .verifyCommit i otpOk milOk =>
    match s.txs[i]? with
    | some (.login read body) =>
      if otpOk && milOk then
        some (s.commit i read.id (loginColumns read body s.now)
          (.login read.id (loginToken read s.now)))
      else some { s with txs := s.txs.eraseIdx i }
    | _ => none
  | .setUserStatus creds userId action =>
    match statusRead s.users s.now creds userId with
    | .error _ => some s
    | .ok target => some { s with txs := s.txs ++ [.status target action] }
  | .statusCommit i =>
    match s.txs[i]? with
    | some (.status read .suspend) =>
      some (s.commit i read.id (statusColumns read .suspend) (.suspend read.id))
    | some (.status read .activate) =>
      some (s.commit i read.id (statusColumns read .activate) (.activate read.id))
    | _ => none
  | .tick d => some { s with now := s.now + d }

/-- The tokens handed out, newest first. -/
def AccountState.issued (s : AccountState) : List AccessToken :=
  s.history.filterMap fun
    | .login _ token => some token
    | _ => none

/-! ## The guarantee and the overlap that breaks it -/

/-- A token handed out by a login is accepted only if no login and no
    suspension of that user has committed since. -/
def TokensRevoked (s : AccountState) : Prop :=
  ∀ newer older user token, s.history = newer ++ .login user token :: older →
    ∀ row, getCurrentUser s.users s.now (some token) = .ok row →
      ∀ record ∈ newer, record.kills user = false

/-- The row a transaction has read, if it is to write a new version. -/
def AccountTx.rotates : AccountTx → Option User
  | .login read _ => some read
  | .status read .suspend => some read
  | .status _ .activate => none

/-- The `i`-th transaction finds the version it has read. -/
def AccountState.Fresh (s : AccountState) (i : ℕ) : Prop :=
  ∀ tx ∈ s.txs[i]?, ∀ read ∈ tx.rotates, ∀ row ∈ s.users.byId read.id,
    row.tokenVersion = read.tokenVersion

/-- A login or a suspension commits on the version it has read. -/
def FreshCommit (s : AccountState) : AccountAction → Prop
  | .verifyCommit i otpOk milOk => (otpOk && milOk) = true → s.Fresh i
  | .statusCommit i => s.Fresh i
  | _ => True

instance (s : AccountState) (i : ℕ) : Decidable (s.Fresh i) := by
  unfold AccountState.Fresh
  infer_instance

instance (s : AccountState) : (a : AccountAction) → Decidable (FreshCommit s a)
  | .verifyCommit i _ _ => by unfold FreshCommit; infer_instance
  | .statusCommit i => inferInstanceAs (Decidable (s.Fresh i))
  | .verify _ => isTrue trivial
  | .setUserStatus _ _ _ => isTrue trivial
  | .tick _ => isTrue trivial

def sampleLogin : VerifyIn := ⟨"+201000000007", "483920", "M-7", "phone"⟩

/-- Two logins read version 1 and both write version 2: the first token is
    still accepted after the second login has committed. -/
theorem token_survives_overlap :
    ¬ ∀ now users as s', run accountStep ⟨now, users, [], []⟩ as = some s' → TokensRevoked s' := by
  intro h
  have hrev := h 0 [sampleUser] [.verify sampleLogin, .verify sampleLogin,
    .verifyCommit 0 true true, .verifyCommit 0 true true] _ rfl
  have := hrev [.login 7 (loginToken sampleUser 0)] [] 7 (loginToken sampleUser 0) rfl
    (loginColumns sampleUser sampleLogin 0 (loginColumns sampleUser sampleLogin 0 sampleUser))
    (by decide +kernel) (.login 7 (loginToken sampleUser 0)) (List.mem_singleton.mpr rfl)
  exact absurd this (by decide)

/-! ## What a step does to the rows -/

/-- A commit changes nothing, or updates one row and records it. -/
theorem commit_cases (s : AccountState) (i : ℕ) (id : UUID) (f : User → User) (record : Committed) :
    (s.commit i id f record).now = s.now ∧
      ((s.commit i id f record).users = s.users ∧ (s.commit i id f record).history = s.history ∨
        (s.commit i id f record).users = Table.modify User.id s.users id f ∧
          (s.commit i id f record).history = record :: s.history) := by
  unfold AccountState.commit
  split
  · exact ⟨rfl, .inl ⟨rfl, rfl⟩⟩
  · split_ifs
    · exact ⟨rfl, .inl ⟨rfl, rfl⟩⟩
    · exact ⟨rfl, .inr ⟨rfl, rfl⟩⟩

/-! ## The invariant -/

variable {s s' : AccountState}

/-- Every token handed out has at most the current version of its user, and
    less once a login or a suspension has followed. -/
def VersionInv (s : AccountState) : Prop :=
  ∀ newer older user token, s.history = newer ++ .login user token :: older →
    token.sub = user.str ∧ ∃ row, s.users.byId user = some row ∧
      token.ver ≤ row.tokenVersion ∧
      ((∃ record ∈ newer, record.kills user = true) → token.ver < row.tokenVersion)

theorem VersionInv.revoked (h : VersionInv s) : TokensRevoked s := by
  intro newer older user token hist row hok record hmem
  obtain ⟨hsub, row', hrow', -, hlt⟩ := h newer older user token hist
  obtain ⟨hrow, -, hver, -⟩ := getCurrentUser_ok hsub hok
  by_contra hkills
  have hkills : record.kills user = true := by simpa using hkills
  have := hlt ⟨record, hmem, hkills⟩
  rw [hrow] at hrow'
  obtain rfl := Option.some.inj hrow'
  omega

/-- A commit keeps the invariant when it lowers no version, raises the version
    of the user it is to log out, and hands out a token of the new version. -/
theorem VersionInv.cons {record : Committed} (h : VersionInv s)
    (hhist : s'.history = record :: s.history)
    (hup : ∀ u row, s.users.byId u = some row → ∃ row', s'.users.byId u = some row' ∧
      row.tokenVersion ≤ row'.tokenVersion ∧
      (record.kills u = true → row.tokenVersion < row'.tokenVersion))
    (hnew : ∀ u token, record = .login u token → token.sub = u.str ∧
      ∃ row', s'.users.byId u = some row' ∧ token.ver ≤ row'.tokenVersion) : VersionInv s' := by
  intro newer older user token hist
  rw [hhist] at hist
  rcases List.cons_eq_append_iff.mp hist with ⟨rfl, heq⟩ | ⟨newer', rfl, heq⟩
  · -- the token has just been handed out
    obtain ⟨hrec, -⟩ := List.cons.inj heq
    obtain ⟨hsub, row', hrow', hle⟩ := hnew user token hrec.symm
    exact ⟨hsub, row', hrow', hle, by simp⟩
  · obtain ⟨hsub, row, hrow, hle, hlt⟩ := h newer' older user token heq
    obtain ⟨row', hrow', hup, hkill⟩ := hup user row hrow
    refine ⟨hsub, row', hrow', by omega, ?_⟩
    rintro ⟨r, hr, hk⟩
    rcases List.mem_cons.mp hr with rfl | hr
    · have := hkill hk
      omega
    · have := hlt ⟨r, hr, hk⟩
      omega

/-- Only the history and the versions matter. -/
theorem VersionInv.congr (h : VersionInv s) (hhist : s'.history = s.history)
    (husers : s'.users = s.users) : VersionInv s' := by
  intro newer older user token hist
  rw [husers]
  exact h newer older user token (hhist ▸ hist)

/-- The commit of a transaction for `id` that lowers no version, and raises the
    one it meets if it is to log the user out. -/
theorem VersionInv.commit {id : UUID} {f : User → User} {record : Committed} (h : VersionInv s)
    (i : ℕ) (hid : ∀ row, (f row).id = row.id) (hother : ∀ u, record.kills u = true → u = id)
    (hf : ∀ row ∈ s.users.byId id, row.tokenVersion ≤ (f row).tokenVersion ∧
      (record.kills id = true → row.tokenVersion < (f row).tokenVersion))
    (hnew : ∀ row ∈ s.users.byId id, ∀ u token, record = .login u token →
      u = id ∧ token.sub = u.str ∧ token.ver ≤ (f row).tokenVersion) :
    VersionInv (s.commit i id f record) := by
  unfold AccountState.commit
  split
  · exact h.congr rfl rfl
  rename_i row hrow
  split_ifs with hmax
  · exact h.congr rfl rfl
  have hself : Users.byId (Table.modify User.id s.users id f) id = some (f row) := by
    show Table.find User.id _ _ = _
    rw [Table.find_modify_self hid]
    exact congrArg (Option.map f) hrow
  refine h.cons rfl ?_ ?_
  · intro u row' hrow'
    by_cases hu : u = id
    · subst hu
      rw [hrow] at hrow'
      obtain rfl := Option.some.inj hrow'
      obtain ⟨hle, hlt⟩ := hf row hrow
      exact ⟨f row, hself, hle, hlt⟩
    · refine ⟨row', ?_, le_rfl, fun hk => absurd (hother u hk) hu⟩
      show Table.find User.id _ _ = _
      rw [Table.find_modify_of_ne hid _ hu]
      exact hrow'
  · intro u token hrec
    obtain ⟨rfl, hsub, hle⟩ := hnew row hrow u token hrec
    exact ⟨hsub, f row, hself, hle⟩

/-- A commit on the version it has read, which it raises by one. -/
theorem VersionInv.rotate {read : User} {f : User → User} {record : Committed} (h : VersionInv s)
    (i : ℕ) (hid : ∀ row, (f row).id = row.id)
    (hver : ∀ row, (f row).tokenVersion = read.tokenVersion + 1)
    (hkills : ∀ u, record.kills u = true → u = read.id)
    (hfresh : ∀ row ∈ s.users.byId read.id, row.tokenVersion = read.tokenVersion)
    (hnew : ∀ u token, record = .login u token →
      u = read.id ∧ token.sub = u.str ∧ token.ver = read.tokenVersion + 1) :
    VersionInv (s.commit i read.id f record) := by
  refine h.commit i hid hkills ?_ ?_
  · intro row hrow
    have := hfresh row hrow
    rw [hver]
    refine ⟨by omega, fun _ => by omega⟩
  · intro row _ u token hrec
    obtain ⟨hu, hsub, htoken⟩ := hnew u token hrec
    rw [hver]
    exact ⟨hu, hsub, htoken.le⟩

theorem versionInv_login {read : User} {body : VerifyIn} (h : VersionInv s) (i : ℕ)
    (hfresh : ∀ row ∈ s.users.byId read.id, row.tokenVersion = read.tokenVersion) :
    VersionInv (s.commit i read.id (loginColumns read body s.now)
      (.login read.id (loginToken read s.now))) := by
  refine h.rotate i (loginColumns_id read body s.now) (fun row => rfl) ?_ hfresh ?_
  · intro u hkills
    exact (of_decide_eq_true hkills).symm
  · intro u token hrec
    obtain ⟨rfl, rfl⟩ := Committed.login.inj hrec
    exact ⟨rfl, rfl, rfl⟩

theorem versionInv_suspend {read : User} (h : VersionInv s) (i : ℕ)
    (hfresh : ∀ row ∈ s.users.byId read.id, row.tokenVersion = read.tokenVersion) :
    VersionInv (s.commit i read.id (statusColumns read .suspend) (.suspend read.id)) := by
  refine h.rotate i (statusColumns_id read .suspend) (fun row => rfl) ?_ hfresh ?_
  · intro u hkills
    exact (of_decide_eq_true hkills).symm
  · intro u token hrec
    cases hrec

/-- An activation leaves every version as it is. -/
theorem versionInv_activate {read : User} (h : VersionInv s) (i : ℕ) :
    VersionInv (s.commit i read.id (statusColumns read .activate) (.activate read.id)) := by
  refine h.commit i (statusColumns_id read .activate) ?_ ?_ ?_
  · intro u hk
    cases hk
  · intro row _
    refine ⟨le_rfl, ?_⟩
    intro hk
    cases hk
  · intro row _ u token hrec
    cases hrec

theorem versionInv_step (s : AccountState) (a : AccountAction) (s' : AccountState)
    (h : VersionInv s) (hg : FreshCommit s a) (hs : accountStep s a = some s') :
    VersionInv s' := by
  cases a with
  | verify body =>
    simp only [accountStep] at hs
    split at hs <;> obtain rfl := Option.some.inj hs
    · exact h
    · exact h.congr rfl rfl
  | verifyCommit i otpOk milOk =>
    simp only [accountStep] at hs
    split at hs
    · rename_i read body htx
      split_ifs at hs with hok <;> obtain rfl := Option.some.inj hs
      · exact versionInv_login h i (hg hok _ htx read rfl)
      · exact h.congr rfl rfl
    · cases hs
  | setUserStatus creds userId action =>
    simp only [accountStep] at hs
    split at hs <;> obtain rfl := Option.some.inj hs
    · exact h
    · exact h.congr rfl rfl
  | statusCommit i =>
    simp only [accountStep] at hs
    split at hs
    · rename_i read htx
      obtain rfl := Option.some.inj hs
      exact versionInv_suspend h i (hg _ htx read rfl)
    · obtain rfl := Option.some.inj hs
      exact versionInv_activate h i
    · cases hs
  | tick d =>
    obtain rfl := Option.some.inj hs
    exact h.congr rfl rfl

theorem versionInv_init (now : Time) (users : Users) : VersionInv ⟨now, users, [], []⟩ := by
  intro newer older user token hist
  simp at hist

/-- **Revocation.** In a run in which every login and suspension commits on the
    version it read, no token handed out by a login is accepted once another
    login or a suspension of that user has committed. -/
theorem tokens_revoked_of_freshCommit (now : Time) (users : Users) (as : List AccountAction)
    (s' : AccountState) (hg : Guarded accountStep FreshCommit ⟨now, users, [], []⟩ as)
    (hr : run accountStep ⟨now, users, [], []⟩ as = some s') : TokensRevoked s' :=
  (hg.invariant versionInv_step (versionInv_init now users) hr).revoked

/-- A login, a suspension by an administrator and an activation, one after the
    other. -/
def sampleRotation : List AccountAction :=
  let creds := some (createAccessToken 1 1 .ADMIN 0)
  [.verify sampleLogin, .verifyCommit 0 true true, .setUserStatus creds 7 .suspend, .statusCommit 0,
    .setUserStatus creds 7 .activate, .statusCommit 0]

theorem tokens_revoked_sequential :
    ∃ s', run accountStep ⟨0, [sampleUser, sampleAdmin], [], []⟩ sampleRotation = some s' ∧
      s'.history.length = 3 ∧ TokensRevoked s' := by
  have hrun : (run accountStep ⟨0, [sampleUser, sampleAdmin], [], []⟩ sampleRotation).map
      (·.history.length) = some 3 := by decide +kernel
  obtain ⟨s', hs', hlen⟩ := Option.map_eq_some_iff.mp hrun
  exact ⟨s', hs', hlen, tokens_revoked_of_freshCommit _ _ _ s' (by decide +kernel) hs'⟩

end IronLink.Auth
