import IronLink.Admin.Routes

/-!
# Listing and searching accounts

What `list_users` finds, and what a client sees that reads its pages one after the other.
`created_at` is the only key of the order: accounts of one moment, such as those of one seeding
transaction, may come in another order in each query.

Results:
* `selected_iff`: the accounts that a query selects, whatever its search text is.
* `stats_selected`: the numbers of `live_stats` are those of the accounts that are listed.
* `listing_complete_iff`: the tables and page sizes for which a client sees every account once.
-/

namespace IronLink.Admin

open Lib Auth Messages Ws

/-! ## Searching -/

section Search

variable {fold : Char → Char}

/-- What a text has to be like so that the search text `q` finds it: `q`, read as a pattern, is met
    somewhere in it. If `q` ends in a backslash, this takes the `%` after it, which is then to be
    met at the end. -/
def Meets (fold : Char → Char) (q text : List Char) : Prop :=
  match parseLike (q.map fold) with
  | some tokens => ∃ stretch, stretch <:+: text.map fold ∧ likes tokens stretch = true
  | none => ∃ tokens, parseLike (q.map fold).dropLast = some tokens ∧
      ∃ ending, ending ++ ['%'] <:+ text.map fold ∧ likes tokens ending = true

theorem fold_searchPattern (hfold : fold '%' = '%') (q : String) :
    (searchPattern q).map fold = '%' :: (q.toList.map fold ++ ['%']) := by
  unfold searchPattern
  rw [List.cons_append, List.map_cons, List.map_append, List.map_singleton, hfold]

theorem parseLike_run (pattern : List Char) :
    parseLike ('%' :: pattern) = (parseLike pattern).map (.run :: ·) :=
  parseLike_cons (by decide) pattern

/-- The pattern of a search is no error, and finds what meets it. -/
theorem ilike_searchPattern (hfold : fold '%' = '%') (q : String) (text : List Char) :
    ∃ b, ilike fold text (searchPattern q) = some b ∧ (b = true ↔ Meets fold q.toList text) := by
  unfold ilike Meets
  rw [fold_searchPattern hfold, parseLike_run]
  cases hq : parseLike (q.toList.map fold) with
  | some tokens =>
    rw [parseLike_append hq, show parseLike ['%'] = some [.run] from rfl]
    exact ⟨_, rfl, likes_between⟩
  | none =>
    obtain ⟨first, tokens, hfirst, htokens⟩ := parseLike_error hq
    rw [hfirst, List.append_assoc, List.singleton_append, parseLike_append htokens,
      show parseLike ['\\', '%'] = some [.char '%'] from rfl]
    refine ⟨_, rfl, ?_⟩
    show likes (.run :: (tokens ++ [.char '%'])) _ = true ↔ _
    rw [likes_run, List.dropLast_concat]
    constructor
    · rintro ⟨skipped, rest, htext, hrest⟩
      obtain ⟨ending, last, rfl, hending, hlast⟩ := likes_append.mp hrest
      obtain ⟨_, rfl, hnil⟩ := likes_char.mp hlast
      rw [likes_nil] at hnil
      subst hnil
      exact ⟨tokens, htokens, ending, ⟨skipped, htext.symm⟩, hending⟩
    · rintro ⟨tokens', htokens', ending, ⟨skipped, htext⟩, hending⟩
      obtain rfl := Option.some.inj (htokens.symm.trans htokens')
      refine ⟨skipped, ending ++ ['%'], htext.symm, likes_append.mpr ⟨ending, ['%'], rfl, hending,
        likes_char.mpr ⟨[], rfl, likes_nil.mpr rfl⟩⟩⟩

theorem found_iff (hfold : fold '%' = '%') (q : String) (account : Account) :
    found fold q account = true ↔ Meets fold q.toList account.fullName.toList ∨
      Meets fold q.toList account.phoneNumber.toList := by
  obtain ⟨b, hb, hmeets⟩ := ilike_searchPattern hfold q account.fullName.toList
  obtain ⟨b', hb', hmeets'⟩ := ilike_searchPattern hfold q account.phoneNumber.toList
  unfold found
  rw [List.any_cons, List.any_cons, List.any_nil, Bool.or_false, hb, hb', Option.getD_some,
    Option.getD_some, Bool.or_eq_true, hmeets, hmeets']

/-- A search text without special characters is met where it stands. -/
theorem meets_plain {q text : List Char} (hq : ∀ c ∈ q, isSpecial (fold c) = false) :
    Meets fold q text ↔ q.map fold <:+: text.map fold := by
  have hparse : parseLike (q.map fold) = some ((q.map fold).map .char) :=
    parseLike_literal (List.forall_mem_map.mpr hq)
  unfold Meets
  rw [hparse]
  constructor
  · rintro ⟨stretch, hstretch, hlikes⟩
    rw [(likes_literal _).mp hlikes] at hstretch
    exact hstretch
  · intro hinfix
    exact ⟨q.map fold, hinfix, (likes_literal _).mpr rfl⟩

/-- The filter of a parameter that may be missing or empty. -/
theorem truthy_filter {param column : Option String} :
    (!Broadcasts.truthy param || decide (column = param)) = true ↔
      ∀ text ∈ param, text ≠ "" → column = some text := by
  cases param with
  | none => simp [Broadcasts.truthy]
  | some text =>
    unfold Broadcasts.truthy
    by_cases htext : text = "" <;> simp [htext]

/-- **Searching.** `list_users` selects the accounts of the department and the status that are
    asked for, of which the name or the phone number is met by the search text; no search text
    makes a pattern that is an error, and one without special characters is met where it stands,
    in upper or lower case. -/
theorem selected_iff (fold : Char → Char) (hfold : fold '%' = '%') (query : UserQuery)
    (accounts : List Account) (account : Account) :
    (account ∈ selected fold query accounts ↔ account ∈ accounts ∧
      (∀ d ∈ query.department, d ≠ "" → account.department = some d) ∧
      (∀ s ∈ query.userStatus, s ≠ "" → some (UserStatus.value account.status) = some s) ∧
      ∀ q ∈ query.q, q ≠ "" → Meets fold q.toList account.fullName.toList ∨
        Meets fold q.toList account.phoneNumber.toList) ∧
    (∀ (q : String) (text : List Char),
      (ilike fold text (searchPattern q)).isSome) ∧
    ∀ q text : List Char, (∀ c ∈ q, isSpecial (fold c) = false) →
      (Meets fold q text ↔ q.map fold <:+: text.map fold) := by
  refine ⟨?_, fun q text => ?_, fun q text hq => meets_plain hq⟩
  swap
  · obtain ⟨b, hb, -⟩ := ilike_searchPattern hfold q text
    rw [hb]
    rfl
  have hsearch : (query.q.all fun q => q = "" || found fold q account) = true ↔
      ∀ q ∈ query.q, q ≠ "" → Meets fold q.toList account.fullName.toList ∨
        Meets fold q.toList account.phoneNumber.toList := by
    cases query.q with
    | none => simp
    | some q =>
      rw [Option.all_some, Bool.or_eq_true, decide_eq_true_eq, found_iff hfold]
      simp only [Option.mem_def, Option.some.injEq, forall_eq', ← or_iff_not_imp_left, ne_eq]
  unfold selected
  rw [List.mem_filter, Bool.and_eq_true, Bool.and_eq_true, truthy_filter, truthy_filter, hsearch,
    and_assoc]

theorem selected_iff_seeded : ∃ account ∈ seeded,
    account ∈ selected Char.toLower { q := some "SEVEN" } seeded ∧
      account.phoneNumber = "+201000000007" := by
  refine ⟨⟨⟨sampleUser, none⟩, 0⟩, by decide, ?_, rfl⟩
  obtain ⟨hselected, -, hplain⟩ := selected_iff Char.toLower (by decide) { q := some "SEVEN" }
    seeded ⟨⟨sampleUser, none⟩, 0⟩
  refine hselected.mpr ⟨by decide, nofun, nofun, fun q hq _ => .inl ?_⟩
  obtain rfl := Option.some.inj hq
  have hletters : ("SEVEN".toList.all fun c => isSpecial c.toLower == false) = true := by decide
  exact (hplain _ _ fun c hc => beq_iff_eq.mp (List.all_eq_true.mp hletters c hc)).mpr (by decide)

end Search

/-! ## Reading the pages -/

/-- The request for the page `k`, at the time `now k`. -/
def askPage (accounts : List Account) (now : ℕ → Time) (creds : Option AccessToken)
    (query : UserQuery) (order : ℕ → List Account) (k : ℕ) :
    Except HttpError (List AdminUserOut) :=
  listUsers accounts (now k) creds { query with offset := k * query.limit } (order k)

/-- The pages of `limit` rows cut the rows between two moments only. -/
def MomentsWhole (limit : ℕ) (rows : List Account) : Prop :=
  ∀ t k, ¬ (above Account.createdAt rows t < k * limit ∧
    k * limit < fromOn Account.createdAt rows t)

section Pages

variable {accounts rows sorted : List Account} {now : ℕ → Time} {creds : Option AccessToken}
  {query : UserQuery} {order : ℕ → List Account} {k : ℕ}

/-- A page that the database is not asked for in vain. -/
theorem askPage_eq (hadmin : ∃ admin, requireSuperadmin (users accounts) (now k) creds = .ok admin)
    (hquery : (query.valid && query.taken) = true) (hlimit : 1 ≤ query.limit)
    (hoffset : k * query.limit ≤ int4Max) :
    askPage accounts now creds query order k =
      .ok ((pageOf (k * query.limit.toNat) query.limit.toNat (order k)).map
        AdminUserOut.modelValidate) := by
  obtain ⟨admin, hadmin⟩ := hadmin
  rw [Bool.and_eq_true] at hquery
  obtain ⟨hvalid, htaken⟩ := hquery
  have hpos : 0 ≤ k * query.limit := Int.mul_nonneg (Int.natCast_nonneg k) (by omega)
  have hvalid' : ({ query with offset := k * query.limit } : UserQuery).valid = true := by
    unfold UserQuery.valid at hvalid ⊢
    simp only [Bool.and_eq_true, decide_eq_true_eq] at hvalid ⊢
    exact ⟨hvalid.1, hpos⟩
  have htaken' : ({ query with offset := k * query.limit } : UserQuery).taken = true := by
    unfold UserQuery.taken at htaken ⊢
    simp only [Bool.and_eq_true, decide_eq_true_eq] at htaken ⊢
    exact ⟨htaken.1, hoffset⟩
  have htoNat : (k * query.limit).toNat = k * query.limit.toNat := by
    rw [Int.toNat_mul (Int.natCast_nonneg k) (by omega), Int.toNat_natCast]
  unfold askPage listUsers
  rw [hadmin, hvalid', htaken']
  dsimp only
  rw [Bool.not_true, if_neg Bool.false_ne_true, if_neg Bool.false_ne_true, htoNat]

/-- What the client has read in the end. -/
theorem readPages_askPage
    (hadmin : ∀ k, ∃ admin, requireSuperadmin (users accounts) (now k) creds = .ok admin)
    (hquery : (query.valid && query.taken) = true) (hlimit : 1 ≤ query.limit)
    (hsize : rows.length + query.limit ≤ int4Max)
    (horder : ∀ k, IsOrder Account.createdAt rows (order k)) :
    readPages (askPage accounts now creds query order)
        (rows.length / query.limit.toNat + 2) 0 =
      some ((pagesFrom query.limit.toNat order rows.length 0).map AdminUserOut.modelValidate) := by
  obtain ⟨limit, hnat⟩ : ∃ limit : ℕ, query.limit = limit := ⟨query.limit.toNat, by omega⟩
  have hpos : 0 < limit := by omega
  have hlength : ∀ j, (order j).length = rows.length := fun j => (horder j).1.length_eq
  have hdiv := Nat.div_mul_le_self rows.length limit
  have hend : rows.length ≤ (rows.length / limit + 1) * limit := by
    rw [Nat.succ_mul]
    have := Nat.lt_div_mul_add (a := rows.length) hpos
    omega
  rw [hnat, Int.toNat_natCast]
  have hread : (∀ j ≤ 0 + (rows.length / limit + 1), askPage accounts now creds query order j =
        .ok ((pageOf (j * limit) limit (order j)).map AdminUserOut.modelValidate)) → _ :=
    fun hrespond => readPages_eq hpos hlength hrespond (by rw [Nat.zero_add]; exact hend)
  rw [hread fun j hj => ?_]
  · congr 2
    by_cases hle : rows.length / limit + 1 ≤ rows.length
    · exact (pagesFrom_stop hlength (by rw [Nat.zero_add]; exact hend) hle).symm
    · refine pagesFrom_stop hlength ?_ (by omega)
      rw [Nat.zero_add]
      exact Nat.le_mul_of_pos_right _ hpos
  · rw [askPage_eq (hadmin j) hquery hlimit ?_, hnat, Int.toNat_natCast]
    have hlast : j * limit ≤ (rows.length / limit + 1) * limit :=
      Nat.mul_le_mul_right limit (by omega)
    rw [Nat.succ_mul] at hlast
    have hbound : j * limit ≤ rows.length + limit := by omega
    rw [hnat] at hsize ⊢
    calc ((j : ℤ) * limit) ≤ ((rows.length + limit : ℕ) : ℤ) := by exact_mod_cast hbound
      _ ≤ int4Max := by push_cast; exact hsize

end Pages

/-- **Listing.** A client of an admin that reads the pages of `list_users` one after the other comes
    to their end. It is shown every account that the query selects once, in whatever order the
    database returns accounts of one moment, if and only if no page ends between two of them. -/
theorem listing_complete_iff (fold : Char → Char) (accounts : List Account)
    (hids : (accounts.map fun account => account.id).Nodup) (query : UserQuery)
    (hquery : (query.valid && query.taken) = true) (hlimit : 1 ≤ query.limit)
    (hsize : (selected fold query accounts).length + query.limit ≤ int4Max) (now : ℕ → Time)
    (creds : Option AccessToken)
    (hadmin : ∀ k, ∃ admin, requireSuperadmin (users accounts) (now k) creds = .ok admin) :
    (∀ order : ℕ → List Account,
      (∀ k, IsOrder Account.createdAt (selected fold query accounts) (order k)) →
      ∃ shown, readPages (askPage accounts now creds query order)
          ((selected fold query accounts).length / query.limit.toNat + 2) 0 = some shown ∧
        shown.Perm ((selected fold query accounts).map AdminUserOut.modelValidate)) ↔
    MomentsWhole query.limit.toNat (selected fold query accounts) := by
  have hnodup : ((selected fold query accounts).map AdminUserOut.modelValidate).Nodup := by
    refine List.Nodup.of_map AdminUserOut.id ?_
    rw [List.map_map]
    exact (hids.sublist (List.filter_sublist.map _))
  refine Iff.trans ?_ (pages_complete_iff (by omega) hnodup)
  refine forall_congr' fun order => forall_congr' fun horder => ?_
  rw [readPages_askPage hadmin hquery hlimit hsize horder]
  exact ⟨fun ⟨_, hshown, hperm⟩ => (Option.some.inj hshown).symm ▸ hperm,
    fun hperm => ⟨_, rfl, hperm⟩⟩

theorem listing_complete_iff_seeded : ¬ ∀ order : ℕ → List Account,
    (∀ k, IsOrder Account.createdAt (selected Char.toLower { limit := 1 } seeded) (order k)) →
    ∃ shown, readPages (askPage seeded (fun _ => 0) (some (createAccessToken 1 1 .ADMIN 0))
        { limit := 1 } order) 4 0 = some shown ∧
      shown.Perm ((selected Char.toLower { limit := 1 } seeded).map
        AdminUserOut.modelValidate) := by
  intro hall
  refine (listing_complete_iff Char.toLower seeded (by decide) { limit := 1 } (by decide)
    (by decide) (by decide) (fun _ => 0) (some (createAccessToken 1 1 .ADMIN 0))
    fun _ => ⟨sampleAdmin, by decide⟩).mp hall 0 1 ?_
  decide

/-- `live_stats` counts the accounts that are listed without a filter, and those of a status. -/
theorem stats_selected {fold : Char → Char} {accounts : List Account} {messages : MessageRows}
    {mediaSizeBytes : UUID → Option ℤ} {presence : Presence} {now : Time}
    {creds : Option AccessToken} {stats : StatsOut}
    (h : liveStats accounts messages mediaSizeBytes presence now creds = .ok stats) :
    stats.totalUsers = (selected fold {} accounts).length ∧
      stats.activeUsers = (selected fold { userStatus := some "active" } accounts).length ∧
      stats.suspendedUsers =
        (selected fold { userStatus := some "suspended" } accounts).length := by
  unfold liveStats at h
  cases hadmin : requireSuperadmin (users accounts) now creds with
  | error e =>
    rw [hadmin] at h
    cases h
  | ok admin =>
    rw [hadmin] at h
    obtain rfl := Except.ok.inj h
    have hstatus : ∀ status, (selected fold { userStatus := some (UserStatus.value status) }
        accounts) = accounts.filter fun account => account.status = status := by
      intro status
      refine List.filter_congr fun account _ => ?_
      cases status <;> cases account.status <;> rfl
    have hall : selected fold {} accounts = accounts := List.filter_eq_self.mpr fun _ _ => rfl
    rw [hall, show "active" = UserStatus.value .ACTIVE from rfl,
      show "suspended" = UserStatus.value .SUSPENDED from rfl, hstatus, hstatus]
    exact ⟨rfl, List.countP_eq_length_filter, List.countP_eq_length_filter⟩

end IronLink.Admin
