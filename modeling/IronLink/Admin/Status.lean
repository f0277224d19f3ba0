import IronLink.Admin.Routes
import IronLink.Lib.Run

/-!
# Suspensions and the audit log

Calls of `set_user_status` by any admins, each cut between its reads and its commit, while the
rest of the server goes on. No other route writes `status` or `role`, or adds or deletes a user.

Results:
* `status_changes_audited`: no account changes its status without a row of the log, and every row
  is from a call of an admin who was entitled to it.
* `status_from_log_iff`: the runs in which the last row on an account tells its status.
-/

namespace IronLink.Admin

open Lib Auth

/-! ## Model -/

def accountById (accounts : List Account) (id : UUID) : Option Account :=
  Table.find (fun account : Account => account.id) accounts id

/-- The server; `audit` are the rows of `set_user_status`. -/
structure AdminServer where
  now : Time
  accounts : List Account
  audit : List StatusAudit
  calls : List StatusCall

def AdminServer.start (now : Time) (accounts : List Account) : AdminServer :=
  ⟨now, accounts, [], []⟩

inductive AdminAction
  /-- `POST /admin/users/{user_id}/status` up to the changes -/
  | setUserStatus (creds : Option AccessToken) (userId : UUID) (body : SetStatusIn)
  /-- the commit of the call `i`; unless `ok`, `publish` or the database raises -/
  | commit (i : ℕ) (ok : Bool)
  /-- another route changes columns of `users` -/
  | rest (accounts : List Account)
  | tick (d : ℕ)

/-- The columns of `users` that no other route writes. -/
def Account.fixed (account : Account) : UUID × UserStatus × UserRole :=
  (account.id, account.status, account.role)

/-- The state after the commit of `call`. -/
def AdminServer.commit (s : AdminServer) (call : StatusCall) : AdminServer :=
  { s with
    accounts := Table.modify (fun account : Account => account.id) s.accounts call.target.id
      call.columns
    audit := s.audit ++ [call.audit] }

def adminStep (s : AdminServer) : AdminAction → Option AdminServer
  | .setUserStatus creds userId body =>
    match statusCheck s.accounts s.now creds userId body with
    | .error _ => some s
    | .ok call => some { s with calls := s.calls ++ [call] }
  | .commit i ok =>
    s.calls[i]?.map fun call =>
      let s := { s with calls := s.calls.eraseIdx i }
      if ok && call.commits s.accounts then s.commit call else s
  | .rest accounts =>
    if accounts.map Account.fixed = s.accounts.map Account.fixed then
      some { s with accounts := accounts }
    else none
  | .tick d => some { s with now := s.now + d }

/-! ## The log -/

/-- The status that an action gives an account. -/
def newStatus : StatusAction → UserStatus
  | .suspend => .SUSPENDED
  | .activate => .ACTIVE

/-- The status that a row of the log tells. -/
def StatusAudit.status (row : StatusAudit) : Option UserStatus :=
  if row.action = "user.suspended" then some .SUSPENDED
  else if row.action = "user.reactivated" then some .ACTIVE
  else none

/-- The status of an account after the rows of the log, read in order. -/
def replay (audit : List StatusAudit) (id : UUID) (initial : UserStatus) : UserStatus :=
  audit.foldl (fun status row =>
    if row.resourceId = id.str then row.status.getD status else status) initial

/-- The log yields the status of every account. -/
def StatusFromLog (accounts : List Account) (s : AdminServer) : Prop :=
  ∀ id initial account, accountById accounts id = some initial →
    accountById s.accounts id = some account → account.status = replay s.audit id initial.status

/-- A call that has found the account in the status it is to have meets it so when it commits. -/
def StatusStands (s : AdminServer) : AdminAction → Prop
  | .commit i ok => ∀ call account, s.calls[i]? = some call →
      (ok && call.commits s.accounts) = true →
      accountById s.accounts call.target.id = some account →
      call.target.status = newStatus call.body.action →
      account.status = newStatus call.body.action
  | _ => True

theorem audit_status (call : StatusCall) :
    call.audit.status = some (newStatus call.body.action) := by
  unfold StatusAudit.status StatusCall.audit
  cases call.body.action <;> rfl

theorem replay_append (audit : List StatusAudit) (call : StatusCall) (id : UUID)
    (initial : UserStatus) : replay (audit ++ [call.audit]) id initial =
      if call.target.id = id then newStatus call.body.action else replay audit id initial := by
  unfold replay
  rw [List.foldl_append, List.foldl_cons, List.foldl_nil, audit_status, Option.getD_some]
  show (if call.target.id.str = id.str then _ else _) = _
  by_cases hid : call.target.id = id
  · rw [hid, if_pos rfl, if_pos rfl]
  · rw [if_neg hid, if_neg fun hstr => hid (UUID.str_injective hstr)]

/-! ## The commit -/

section Commit

variable {s s' : AdminServer} {call : StatusCall} {account : Account} {id : UUID}

theorem columns_id (call : StatusCall) (account : Account) :
    (call.columns account).id = account.id := by
  unfold StatusCall.columns
  cases call.body.action <;> rfl

/-- A status that is the one read is not written. -/
theorem columns_status (call : StatusCall) (account : Account) :
    (call.columns account).status =
      if call.target.status = newStatus call.body.action then account.status
      else newStatus call.body.action := by
  unfold StatusCall.columns
  cases call.body.action <;> rfl

theorem accountById_commit :
    accountById (s.commit call).accounts id = (accountById s.accounts id).map fun account =>
      if call.target.id = id then call.columns account else account := by
  unfold accountById AdminServer.commit
  by_cases hid : call.target.id = id
  · subst hid
    simp only [if_true]
    exact Table.find_modify_self (columns_id call) s.accounts call.target.id
  · simp only [if_neg hid, Option.map_id']
    exact Table.find_modify_of_ne (columns_id call) s.accounts (Ne.symm hid)

theorem ids_commit : (s.commit call).accounts.map (fun account => account.id) =
    s.accounts.map fun account => account.id :=
  Table.map_key_modify (columns_id call) s.accounts call.target.id

end Commit

/-! ## The rest of the server -/

theorem accountById_fixed (accounts : List Account) (id : UUID) :
    (accountById accounts id).map Account.fixed =
      (accounts.map Account.fixed).find? fun columns => columns.1 = id := by
  unfold accountById Table.find
  rw [List.find?_map]
  rfl

/-- An account keeps its status and its role where the columns stay that no other route writes. -/
theorem accountById_rest {accounts accounts' : List Account} {id : UUID} {account' : Account}
    (h : accounts'.map Account.fixed = accounts.map Account.fixed)
    (haccount : accountById accounts' id = some account') :
    ∃ account, accountById accounts id = some account ∧ account'.status = account.status ∧
      account'.role = account.role := by
  have hfixed := accountById_fixed accounts' id
  rw [h, ← accountById_fixed, haccount] at hfixed
  obtain ⟨account, hfound, hsame⟩ := Option.map_eq_some_iff.mp hfixed.symm
  obtain ⟨-, hrest⟩ := Prod.mk.inj hsame
  obtain ⟨hstatus, hrole⟩ := Prod.mk.inj hrest
  exact ⟨account, hfound, hstatus.symm, hrole.symm⟩

/-! ## What the log tells -/

section Replay

variable {accounts : List Account} {s s' : AdminServer} {a : AdminAction} {call : StatusCall}

/-- The log yields the status of every account, and there are the accounts of the start. -/
structure Logged (accounts : List Account) (s : AdminServer) : Prop where
  ids : s.accounts.map (fun account => account.id) = accounts.map fun account => account.id
  status : StatusFromLog accounts s

theorem logged_start (now : Time) : Logged accounts (.start now accounts) where
  ids := rfl
  status id initial account hinitial haccount := by
    obtain rfl := Option.some.inj (hinitial.symm.trans haccount)
    rfl

theorem Logged.commit (h : Logged accounts s)
    (hstands : ∀ account, accountById s.accounts call.target.id = some account →
      call.target.status = newStatus call.body.action →
      account.status = newStatus call.body.action) : Logged accounts (s.commit call) where
  ids := ids_commit.trans h.ids
  status id initial account hinitial haccount := by
    rw [accountById_commit] at haccount
    obtain ⟨old, hold, rfl⟩ := Option.map_eq_some_iff.mp haccount
    show _ = replay (s.audit ++ [call.audit]) id initial.status
    rw [replay_append]
    split_ifs with hid
    · subst hid
      rw [columns_status]
      split_ifs with hread
      · exact hstands old hold hread
      · rfl
    · exact h.status id initial old hinitial hold

theorem Logged.rest (h : Logged accounts s) {accounts' : List Account}
    (hfixed : accounts'.map Account.fixed = s.accounts.map Account.fixed) :
    Logged accounts { s with accounts := accounts' } where
  ids := by
    have hids := congrArg (List.map Prod.fst) hfixed
    rw [List.map_map, List.map_map] at hids
    exact hids.trans h.ids
  status id initial account hinitial haccount := by
    obtain ⟨old, hold, hstatus, -⟩ := accountById_rest hfixed haccount
    exact hstatus.trans (h.status id initial old hinitial hold)

theorem Logged.step (h : Logged accounts s) (hstands : StatusStands s a)
    (hs : adminStep s a = some s') : Logged accounts s' := by
  cases a with
  | setUserStatus creds userId body =>
    unfold adminStep at hs
    dsimp only at hs
    split at hs
    · obtain rfl := Option.some.inj hs
      exact h
    · obtain rfl := Option.some.inj hs
      exact ⟨h.ids, h.status⟩
  | commit i ok =>
    obtain ⟨call, hcall, rfl⟩ := Option.map_eq_some_iff.mp hs
    dsimp only
    split_ifs with hcommits
    · exact Logged.commit (s := { s with calls := s.calls.eraseIdx i }) ⟨h.ids, h.status⟩
        fun account => hstands call account hcall hcommits
    · exact ⟨h.ids, h.status⟩
  | rest accounts' =>
    unfold adminStep at hs
    dsimp only at hs
    split_ifs at hs with hfixed
    obtain rfl := Option.some.inj hs
    exact h.rest hfixed
  | tick d =>
    obtain rfl := Option.some.inj hs
    exact ⟨h.ids, h.status⟩

/-- A call that finds the account changed leaves a row that tells another status. -/
theorem not_statusFromLog (h : Logged accounts s) (hstands : ¬ StatusStands s a) :
    ∃ s' ∈ adminStep s a, ¬ StatusFromLog accounts s' := by
  cases a with
  | setUserStatus creds userId body => exact absurd trivial hstands
  | rest accounts' => exact absurd trivial hstands
  | tick d => exact absurd trivial hstands
  | commit i ok =>
    unfold StatusStands at hstands
    push Not at hstands
    obtain ⟨call, account, hcall, hcommits, haccount, hread, hstatus⟩ := hstands
    obtain ⟨hok, hcommit⟩ := Bool.and_eq_true_iff.mp hcommits
    refine ⟨AdminServer.commit { s with calls := s.calls.eraseIdx i } call, ?_, fun hlog => ?_⟩
    · show (s.calls[i]?.map _) = _
      rw [hcall, Option.map_some]
      dsimp only
      rw [if_pos hcommits]
    · have hmem : call.target.id ∈ accounts.map fun account => account.id := by
        rw [← h.ids, ← Table.find_key haccount]
        exact List.mem_map_of_mem (f := fun account : Account => account.id)
          (Table.find_mem haccount)
      obtain ⟨initial, hinitial⟩ :
          ∃ initial, accountById accounts call.target.id = some initial := by
        refine Option.ne_none_iff_exists'.mp fun hnone => ?_
        obtain ⟨x, hx, hxid⟩ := List.mem_map.mp hmem
        exact Table.find_eq_none.mp hnone x hx hxid
      have hnow := hlog call.target.id initial (call.columns account) hinitial (by
        rw [accountById_commit, haccount, Option.map_some, if_pos rfl])
      change _ = replay (s.audit ++ [call.audit]) call.target.id initial.status at hnow
      rw [columns_status, if_pos hread, replay_append, if_pos rfl] at hnow
      exact hstatus hnow

/-- **The last word of the log.** The last row on an account tells its status in every state of a
    run if and only if in the run no call that has found an account in the status it is to have
    commits after another one has changed it. -/
theorem status_from_log_iff (now : Time) (accounts : List Account) (as : List AdminAction) :
    Throughout adminStep (StatusFromLog accounts) (.start now accounts) as ↔
      Guarded adminStep StatusStands (.start now accounts) as :=
  throughout_iff_guarded (I := Logged accounts) (fun _ h => h.status)
    (fun _ _ _ h hstands hs => h.step hstands hs) (fun _ _ h hstands => not_statusFromLog h hstands)
    (logged_start now)

end Replay

/-! ## Who answers for a change -/

section Answers

/-- The run along `as` has begun the call: it has read the target's row, for an active admin who
    may change it. -/
def Begun (now : Time) (accounts : List Account) (as : List AdminAction) (call : StatusCall) :
    Prop :=
  ∃ m creds m', Takes adminStep (.start now accounts) as m
      (.setUserStatus creds call.target.id call.body) m' ∧
    statusCheck m.accounts m.now creds call.target.id call.body = .ok call ∧
    (users m.accounts).byId call.target.id = some call.target ∧
    requireSuperadmin (users m.accounts) m.now creds = .ok call.admin ∧
    call.admin.status = .ACTIVE ∧
    (call.admin.role = .ADMIN ∨ call.admin.role = .SUPERADMIN) ∧
    (call.target.role = .SUPERADMIN → call.admin.role = .SUPERADMIN) ∧
    call.body.valid = true

/-- Every row of the log is that of a call, and every change of a status has a row. -/
structure Answerable (now : Time) (accounts : List Account) (as : List AdminAction)
    (s : AdminServer) : Prop where
  calls : ∀ call ∈ s.calls, Begun now accounts as call
  rows : ∀ row ∈ s.audit, ∃ call, Begun now accounts as call ∧ row = call.audit
  changes : ∀ id initial account, accountById accounts id = some initial →
    accountById s.accounts id = some account → account.status ≠ initial.status →
    ∃ row ∈ s.audit, row.resourceId = id.str ∧ row.status = some account.status

variable {now : Time} {accounts : List Account} {as : List AdminAction} {s s' : AdminServer}
  {a : AdminAction} {call : StatusCall}

theorem requireSuperadmin_ok {rows : Users} {creds : Option AccessToken} {admin : User}
    (h : requireSuperadmin rows now creds = .ok admin) :
    admin.status = .ACTIVE ∧ (admin.role = .ADMIN ∨ admin.role = .SUPERADMIN) := by
  unfold requireSuperadmin at h
  cases hcurrent : getCurrentUser rows now creds with
  | error e =>
    rw [hcurrent] at h
    cases h
  | ok user =>
    rw [hcurrent] at h
    dsimp only at h
    unfold superadminCheck at h
    split_ifs at h with hrole
    obtain rfl := Except.ok.inj h
    refine ⟨?_, hrole⟩
    unfold getCurrentUser at hcurrent
    split at hcurrent
    · cases hcurrent
    · unfold selectUser at hcurrent
      split at hcurrent
      · cases hcurrent
      · split_ifs at hcurrent with hactive hversion
        obtain rfl := Except.ok.inj hcurrent
        exact not_not.mp hactive

theorem statusCheck_ok {creds : Option AccessToken} {userId : UUID} {body : SetStatusIn}
    (h : statusCheck accounts now creds userId body = .ok call) :
    requireSuperadmin (users accounts) now creds = .ok call.admin ∧
      (users accounts).byId userId = some call.target ∧ call.body = body ∧ body.valid = true ∧
      (call.target.role = .SUPERADMIN → call.admin.role = .SUPERADMIN) := by
  unfold statusCheck at h
  cases hadmin : requireSuperadmin (users accounts) now creds with
  | error e =>
    rw [hadmin] at h
    cases h
  | ok admin =>
    rw [hadmin] at h
    dsimp only at h
    split_ifs at h with hvalid
    unfold statusRead at h
    rw [hadmin] at h
    dsimp only at h
    cases htarget : statusTarget (users accounts) admin userId with
    | error e =>
      rw [htarget] at h
      cases h
    | ok target =>
      rw [htarget] at h
      obtain rfl := Except.ok.inj h
      obtain ⟨hfound, hsuper⟩ := statusTarget_ok htarget
      exact ⟨rfl, hfound, rfl, by simpa using hvalid, hsuper⟩

theorem Begun.later (h : Begun now accounts as call) : Begun now accounts (as ++ [a]) call := by
  obtain ⟨m, creds, m', htakes, hrest⟩ := h
  exact ⟨m, creds, m', htakes.append [a], hrest⟩

theorem Answerable.later (h : Answerable now accounts as s) :
    Answerable now accounts (as ++ [a]) s where
  calls call hcall := (h.calls call hcall).later
  rows row hrow := by
    obtain ⟨call, hbegun, hcall⟩ := h.rows row hrow
    exact ⟨call, hbegun.later, hcall⟩
  changes := h.changes

theorem Answerable.commit (h : Answerable now accounts as s) (hbegun : Begun now accounts as call) :
    Answerable now accounts as (s.commit call) where
  calls := h.calls
  rows row hrow := by
    obtain hrow | hrow := List.mem_append.mp hrow
    · exact h.rows row hrow
    · exact ⟨call, hbegun, List.mem_singleton.mp hrow⟩
  changes id initial account hinitial haccount hchanged := by
    rw [accountById_commit] at haccount
    obtain ⟨old, hold, rfl⟩ := Option.map_eq_some_iff.mp haccount
    have hkept : old.status ≠ initial.status →
        ∃ row ∈ (s.commit call).audit, row.resourceId = id.str ∧ row.status = some old.status := by
      intro hne
      obtain ⟨row, hrow, htells⟩ := h.changes id initial old hinitial hold hne
      exact ⟨row, List.mem_append_left _ hrow, htells⟩
    split_ifs at hchanged ⊢ with hid
    · rw [columns_status] at hchanged ⊢
      split_ifs at hchanged ⊢ with hread
      · exact hkept hchanged
      · refine ⟨call.audit, List.mem_append_right _ (List.mem_singleton.mpr rfl), ?_,
          audit_status call⟩
        exact congrArg UUID.str hid
    · exact hkept hchanged

theorem Answerable.step
    (hr : run adminStep (.start now accounts) as = some s) (h : Answerable now accounts as s)
    (hs : adminStep s a = some s') : Answerable now accounts (as ++ [a]) s' := by
  have hlater : Answerable now accounts (as ++ [a]) s := h.later
  cases a with
  | setUserStatus creds userId body =>
    have hs' := hs
    unfold adminStep at hs
    dsimp only at hs
    cases hcheck : statusCheck s.accounts s.now creds userId body with
    | error e =>
      rw [hcheck] at hs
      obtain rfl := Option.some.inj hs
      exact hlater
    | ok call =>
      rw [hcheck] at hs
      obtain rfl := Option.some.inj hs
      obtain ⟨hadmin, htarget, rfl, hvalid, hsuper⟩ := statusCheck_ok hcheck
      obtain rfl : call.target.id = userId := Table.find_key htarget
      obtain ⟨hactive, hrole⟩ := requireSuperadmin_ok hadmin
      refine ⟨List.forall_mem_append.mpr ⟨hlater.calls, List.forall_mem_singleton.mpr ?_⟩,
        hlater.rows, hlater.changes⟩
      exact ⟨s, creds, _, takes_last hr hs', hcheck, htarget, hadmin, hactive, hrole, hsuper,
        hvalid⟩
  | commit i ok =>
    obtain ⟨call, hcall, rfl⟩ := Option.map_eq_some_iff.mp hs
    have hrest : Answerable now accounts (as ++ [.commit i ok])
        { s with calls := s.calls.eraseIdx i } :=
      ⟨fun call' hcall' => hlater.calls call' (List.mem_of_mem_eraseIdx hcall'), hlater.rows,
        hlater.changes⟩
    dsimp only
    split_ifs with hcommits
    · exact hrest.commit (hlater.calls call (List.mem_of_getElem? hcall))
    · exact hrest
  | rest accounts' =>
    unfold adminStep at hs
    dsimp only at hs
    split_ifs at hs with hfixed
    obtain rfl := Option.some.inj hs
    refine ⟨hlater.calls, hlater.rows, fun id initial account hinitial haccount hchanged => ?_⟩
    obtain ⟨old, hold, hstatus, -⟩ := accountById_rest hfixed haccount
    rw [hstatus] at hchanged ⊢
    exact hlater.changes id initial old hinitial hold hchanged
  | tick d =>
    obtain rfl := Option.some.inj hs
    exact ⟨hlater.calls, hlater.rows, hlater.changes⟩

theorem answerable_start : Answerable now accounts [] (.start now accounts) where
  calls call hcall := absurd hcall List.not_mem_nil
  rows row hrow := absurd hrow List.not_mem_nil
  changes id initial account hinitial haccount hchanged := by
    obtain rfl := Option.some.inj (hinitial.symm.trans haccount)
    exact absurd rfl hchanged

/-- **Answering for a change.** In every run every row that `set_user_status` has logged is from a
    call of an admin who was active and entitled to change the account, with a reason, and an
    account has another status than at the start only if a row on it tells that status. -/
theorem status_changes_audited (now : Time) (accounts : List Account) (as : List AdminAction)
    (s' : AdminServer) (hr : run adminStep (.start now accounts) as = some s') :
    (∀ row ∈ s'.audit, ∃ call, Begun now accounts as call ∧ row = call.audit) ∧
      ∀ id initial account, accountById accounts id = some initial →
        accountById s'.accounts id = some account → account.status ≠ initial.status →
        ∃ row ∈ s'.audit, row.resourceId = id.str ∧ row.status = some account.status := by
  have h : Answerable now accounts as s' :=
    run_history answerable_start (fun _ _ _ _ hr h hs => h.step hr hs) hr
  exact ⟨h.rows, h.changes⟩

theorem status_changes_audited_suspended : ∃ s' account,
    run adminStep (.start 0 seeded)
      [.setUserStatus (some (createAccessToken 1 1 .ADMIN 0)) 7 ⟨.suspend, "has left"⟩,
        .commit 0 true] = some s' ∧
    accountById s'.accounts 7 = some account ∧ account.status = .SUSPENDED ∧
    ∃ row ∈ s'.audit, row.resourceId = UUID.str 7 ∧ row.status = some account.status := by
  have hrun : (run adminStep (.start 0 seeded)
      [.setUserStatus (some (createAccessToken 1 1 .ADMIN 0)) 7 ⟨.suspend, "has left"⟩,
        .commit 0 true]).map (fun s' => (accountById s'.accounts 7).map fun account =>
          account.status) = some (some .SUSPENDED) := by decide +kernel
  obtain ⟨s', hr, haccount⟩ := Option.map_eq_some_iff.mp hrun
  obtain ⟨account, haccount, hstatus⟩ := Option.map_eq_some_iff.mp haccount
  obtain ⟨-, hchanges⟩ := status_changes_audited 0 seeded _ s' hr
  refine ⟨s', account, hr, haccount, hstatus, ?_⟩
  exact hchanges 7 ⟨⟨sampleUser, none⟩, 0⟩ account (by decide) haccount
    (by rw [hstatus]; decide)

end Answers

end IronLink.Admin
