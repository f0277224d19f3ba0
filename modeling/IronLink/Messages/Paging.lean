import IronLink.Messages.ChatList

/-!
# Paging through a history

A client asks for the newest `limit` messages, then for those before the oldest one it has,
and so on until a page is empty. The cursor is a `created_at`, which other messages may share:
those that the page was too short for are never asked for again.

Results:
* `paging_complete_iff`: the histories that are paged through without a loss, and that the
  paging ends in any case.
* `equal_moments_lost`: a history of which a message is lost.
-/

namespace IronLink.Messages

open Lib Auth

/-! ## The client's loop -/

/-- The pages, the newest first, from the cursor `before` on. `respond` is `message_history`;
    `none`: the fuel has run out, or a response was an error. -/
def pages (respond : Option Time → Except HttpError (List MessageOut)) :
    ℕ → Option Time → Option (List (List MessageOut))
  | 0, _ => none
  | fuel + 1, before =>
    match respond before with
    | .error _ => none
    | .ok [] => some []
    | .ok (oldest :: newer) =>
      (pages respond fuel (some oldest.createdAt)).map ((oldest :: newer) :: ·)

/-- The pages back to front hold every message of the history once, in chronological order. -/
def Complete (rows : MessageRows) (userId peerId : UUID) (pages : List (List MessageOut)) : Prop :=
  pages.reverse.flatten.Perm ((history rows userId peerId).map MessageOut.modelValidate) ∧
    pages.reverse.flatten.Pairwise fun out out' => out.createdAt ≤ out'.createdAt

/-- The number of messages after a moment, and from it on. -/
def newer (messages : List Message) (t : Time) : ℕ :=
  messages.countP fun msg => decide (t < msg.createdAt)

def since (messages : List Message) (t : Time) : ℕ :=
  messages.countP fun msg => decide (t ≤ msg.createdAt)

/-- Counted from the newest message on, in pages of `limit`, the messages of each moment are on
    one page. -/
def MomentsUnsplit (limit : ℕ) (messages : List Message) : Prop :=
  ∀ t k, ¬ (newer messages t < k * limit ∧ k * limit < since messages t)

/-! ## One page -/

/-- The messages before the cursor. -/
def remaining (messages : List Message) (before : Option Time) : List Message :=
  messages.filter fun msg => before.all (msg.createdAt < ·)

/-- A page of the messages `rest`: the newest of them, oldest first. -/
structure Page (limit : ℕ) (rest page : List Message) : Prop where
  nodup : (page.map Message.id).Nodup
  subset : ∀ msg ∈ page, msg ∈ rest
  length : page.length = min limit rest.length
  sorted : page.Pairwise fun msg msg' => msg.createdAt ≤ msg'.createdAt
  newest : ∀ msg ∈ rest, msg ∉ page → ∀ msg' ∈ page, msg.createdAt ≤ msg'.createdAt

variable {rows : MessageRows} {userId peerId : UUID} {limit : ℕ}
  {messages rest page : List Message} {msg oldest : Message} {before : Option Time}

theorem filter_inHistory : rows.filter (inHistory userId peerId before) =
    remaining (history rows userId peerId) before := by
  unfold remaining history
  rw [List.filter_filter]
  refine List.filter_congr fun msg _ => ?_
  unfold inHistory
  rw [Option.all_none, Bool.and_true, Bool.and_comm]

theorem page_of_isHistory (h : IsHistory rows userId peerId before limit page) :
    Page limit (remaining (history rows userId peerId) before) page := by
  unfold IsHistory at h
  rw [filter_inHistory] at h
  exact ⟨h.1, h.2.1, h.2.2.1, h.2.2.2.1, h.2.2.2.2⟩

/-! ## Counting -/

theorem newer_append (messages messages' : List Message) (t : Time) :
    newer (messages ++ messages') t = newer messages t + newer messages' t := List.countP_append

theorem since_append (messages messages' : List Message) (t : Time) :
    since (messages ++ messages') t = since messages t + since messages' t := List.countP_append

theorem newer_perm {messages' : List Message} (h : messages.Perm messages') (t : Time) :
    newer messages t = newer messages' t := h.countP_eq _

theorem since_perm {messages' : List Message} (h : messages.Perm messages') (t : Time) :
    since messages t = since messages' t := h.countP_eq _

theorem newer_eq_zero {t : Time} (h : ∀ msg ∈ messages, msg.createdAt ≤ t) :
    newer messages t = 0 := by
  unfold newer
  rw [List.countP_eq_zero]
  intro msg hmsg
  have := h msg hmsg
  simp [this]

theorem since_eq_zero {t : Time} (h : ∀ msg ∈ messages, msg.createdAt < t) :
    since messages t = 0 := by
  unfold since
  rw [List.countP_eq_zero]
  intro msg hmsg
  have := h msg hmsg
  simp [this]

theorem newer_eq_length {t : Time} (h : ∀ msg ∈ messages, t < msg.createdAt) :
    newer messages t = messages.length := by
  unfold newer
  rw [List.countP_eq_length]
  intro msg hmsg
  simpa using h msg hmsg

theorem since_eq_length {t : Time} (h : ∀ msg ∈ messages, t ≤ msg.createdAt) :
    since messages t = messages.length := by
  unfold since
  rw [List.countP_eq_length]
  intro msg hmsg
  simpa using h msg hmsg

theorem since_le_length (messages : List Message) (t : Time) :
    since messages t ≤ messages.length := List.countP_le_length

/-- A first page of `limit` newer messages: the rest is counted from the second page on. -/
theorem momentsUnsplit_append {older : List Message} (hlength : page.length = limit) {t₀ : Time}
    (hpage : ∀ msg ∈ page, t₀ ≤ msg.createdAt)
    (holder : ∀ msg ∈ older, msg.createdAt < t₀) :
    MomentsUnsplit limit (page ++ older) ↔ MomentsUnsplit limit older := by
  have hnewer : ∀ t, newer (page ++ older) t = newer page t + newer older t :=
    newer_append page older
  have hsince : ∀ t, since (page ++ older) t = since page t + since older t :=
    since_append page older
  constructor
  · rintro h t k ⟨hlt, hgt⟩
    have ht : t < t₀ := by
      by_contra hle
      rw [since_eq_zero fun m hm => (holder m hm).trans_le (not_lt.mp hle)] at hgt
      exact absurd hgt (Nat.not_lt_zero _)
    have hfront : newer page t = limit := by
      rw [newer_eq_length fun m hm => ht.trans_le (hpage m hm), hlength]
    have hfront' : since page t = limit := by
      rw [since_eq_length fun m hm => ht.le.trans (hpage m hm), hlength]
    refine h t (k + 1) ⟨?_, ?_⟩
    · rw [hnewer, hfront, Nat.succ_mul]
      omega
    · rw [hsince, hfront', Nat.succ_mul]
      omega
  · rintro h t k ⟨hlt, hgt⟩
    rw [hnewer] at hlt
    rw [hsince] at hgt
    cases k with
    | zero =>
      rw [Nat.zero_mul] at hlt
      exact Nat.not_lt_zero _ hlt
    | succ k =>
      rw [Nat.succ_mul] at hlt hgt
      obtain ht | ht := lt_or_ge t t₀
      · rw [newer_eq_length fun m hm => ht.trans_le (hpage m hm), hlength] at hlt
        rw [since_eq_length fun m hm => ht.le.trans (hpage m hm), hlength] at hgt
        exact h t k ⟨by omega, by omega⟩
      · rw [since_eq_zero fun m hm => (holder m hm).trans_le ht] at hgt
        have := since_le_length page t
        omega

/-- What fits on one page is not split. -/
theorem momentsUnsplit_of_length_le (h : messages.length ≤ limit) :
    MomentsUnsplit limit messages := by
  rintro t k ⟨hlt, hgt⟩
  have hle := since_le_length messages t
  cases k with
  | zero =>
    rw [Nat.zero_mul] at hlt
    exact Nat.not_lt_zero _ hlt
  | succ k =>
    rw [Nat.succ_mul] at hgt
    omega

theorem momentsUnsplit_perm {messages' : List Message} (h : messages.Perm messages') :
    MomentsUnsplit limit messages ↔ MomentsUnsplit limit messages' := by
  unfold MomentsUnsplit
  simp only [newer_perm h, since_perm h]

/-! ## A page and what is older -/

/-- The messages that are not on the page. -/
def older (rest page : List Message) : List Message := rest.filter fun msg => decide (msg ∉ page)

theorem perm_older (hrest : (rest.map Message.id).Nodup) (h : Page limit rest page) :
    rest.Perm (page ++ older rest page) := by
  have hnodup : (page ++ older rest page).Nodup := by
    refine List.Nodup.append (h.nodup.of_map _) ((hrest.of_map _).filter _) fun msg hin hold => ?_
    have := (List.mem_filter.mp hold).2
    exact of_decide_eq_true this hin
  refine (List.perm_ext_iff_of_nodup (hrest.of_map _) hnodup).mpr fun msg => ?_
  rw [List.mem_append]
  constructor
  · intro hmsg
    by_cases hin : msg ∈ page
    · exact .inl hin
    · exact .inr (List.mem_filter.mpr ⟨hmsg, decide_eq_true hin⟩)
  · rintro (hin | hold)
    · exact h.subset msg hin
    · exact (List.mem_filter.mp hold).1

/-- The oldest message of a page. -/
theorem Page.oldest_le {newerMsgs : List Message} (h : Page limit rest (oldest :: newerMsgs))
    (hmsg : msg ∈ oldest :: newerMsgs) : oldest.createdAt ≤ msg.createdAt := by
  obtain rfl | hin := List.mem_cons.mp hmsg
  · exact le_rfl
  · exact (List.pairwise_cons.mp h.sorted).1 msg hin

/-- Of the moment of the oldest message of the page, no message is missing. -/
def Clean (rest page : List Message) (oldest : Message) : Prop :=
  ∀ msg ∈ older rest page, msg.createdAt < oldest.createdAt

/-- After a clean page, the cursor leaves all that is not on it. -/
theorem remaining_clean {newerMsgs : List Message} (h : Page limit rest (oldest :: newerMsgs))
    (hclean : Clean rest (oldest :: newerMsgs) oldest) :
    remaining rest (some oldest.createdAt) = older rest (oldest :: newerMsgs) := by
  refine List.filter_congr fun msg hmsg => ?_
  by_cases hin : msg ∈ oldest :: newerMsgs
  · have := h.oldest_le hin
    simp [hin, this]
  · have := hclean msg (List.mem_filter.mpr ⟨hmsg, decide_eq_true hin⟩)
    simp [hin, this]

/-- A page that leaves something is full. -/
theorem Page.full (hrest : (rest.map Message.id).Nodup) (h : Page limit rest page)
    (hmsg : msg ∈ older rest page) : page.length = limit := by
  have hlength := (perm_older hrest h).length_eq
  have hpos := List.length_pos_of_mem hmsg
  rw [List.length_append] at hlength
  have := h.length
  omega

/-- A page that is not clean splits the moment of its oldest message. -/
theorem not_momentsUnsplit {newerMsgs : List Message} (hrest : (rest.map Message.id).Nodup)
    (h : Page limit rest (oldest :: newerMsgs))
    (hclean : ¬ Clean rest (oldest :: newerMsgs) oldest) : ¬ MomentsUnsplit limit rest := by
  obtain ⟨msg, hmsg⟩ := not_forall.mp hclean
  obtain ⟨hmsg, hnot⟩ := Classical.not_imp.mp hmsg
  have hfull := h.full hrest hmsg
  rw [momentsUnsplit_perm (perm_older hrest h)]
  intro hunsplit
  refine hunsplit oldest.createdAt 1 ⟨?_, ?_⟩
  · have hold : newer (older rest (oldest :: newerMsgs)) oldest.createdAt = 0 := by
      refine newer_eq_zero fun m hm => ?_
      obtain ⟨hrow, hout⟩ := List.mem_filter.mp hm
      exact h.newest m hrow (of_decide_eq_true hout) oldest List.mem_cons_self
    have hpage : newer (oldest :: newerMsgs) oldest.createdAt ≤ newerMsgs.length := by
      unfold newer
      rw [List.countP_cons_of_neg (by simp)]
      exact List.countP_le_length
    rw [List.length_cons] at hfull
    rw [newer_append, hold]
    omega
  · have hold : 0 < since (older rest (oldest :: newerMsgs)) oldest.createdAt :=
      List.countP_pos_iff.mpr ⟨msg, hmsg, decide_eq_true (not_lt.mp hnot)⟩
    have hpage : since (oldest :: newerMsgs) oldest.createdAt = limit := by
      rw [since_eq_length fun m hm => h.oldest_le hm, hfull]
    rw [since_append, hpage]
    omega

theorem momentsUnsplit_clean {newerMsgs : List Message} (hrest : (rest.map Message.id).Nodup)
    (h : Page limit rest (oldest :: newerMsgs))
    (hclean : Clean rest (oldest :: newerMsgs) oldest) : MomentsUnsplit limit rest ↔
      MomentsUnsplit limit (older rest (oldest :: newerMsgs)) := by
  rw [momentsUnsplit_perm (perm_older hrest h)]
  cases hold : older rest (oldest :: newerMsgs) with
  | nil =>
    have hle : (oldest :: newerMsgs).length ≤ limit := by
      have := h.length
      omega
    rw [List.append_nil]
    exact iff_of_true (momentsUnsplit_of_length_le hle)
      (momentsUnsplit_of_length_le (Nat.zero_le limit))
  | cons first others =>
    have hfirst : first ∈ older rest (oldest :: newerMsgs) := by
      rw [hold]
      exact List.mem_cons_self
    have hfull := h.full hrest hfirst
    rw [← hold]
    exact momentsUnsplit_append hfull (fun m hm => h.oldest_le hm) hclean

/-! ## All pages -/

/-- What the pages from a cursor on are, `rest` being the messages before it. -/
structure PagesOf (limit : ℕ) (rest : List Message) (pgs : List (List Message)) : Prop where
  subset : ∀ msg ∈ pgs.reverse.flatten, msg ∈ rest
  sorted : pgs.reverse.flatten.Pairwise fun msg msg' => msg.createdAt ≤ msg'.createdAt
  complete_iff : pgs.reverse.flatten.Perm rest ↔ MomentsUnsplit limit rest

theorem pagesOf_nil : PagesOf limit [] [] where
  subset := fun _ h => h
  sorted := .nil
  complete_iff := iff_of_true .nil (momentsUnsplit_of_length_le (Nat.zero_le limit))

/-- One more page. -/
theorem PagesOf.cons {newerMsgs : List Message} {pgs : List (List Message)}
    (hrest : (rest.map Message.id).Nodup) (hpage : Page limit rest (oldest :: newerMsgs))
    (h : PagesOf limit (remaining rest (some oldest.createdAt)) pgs) :
    PagesOf limit rest ((oldest :: newerMsgs) :: pgs) := by
  have hflatten : ((oldest :: newerMsgs) :: pgs).reverse.flatten =
      pgs.reverse.flatten ++ (oldest :: newerMsgs) := by
    rw [List.reverse_cons, List.flatten_append, List.flatten_singleton]
  have hbefore : ∀ msg ∈ pgs.reverse.flatten, msg ∈ rest ∧ msg.createdAt < oldest.createdAt := by
    intro msg hmsg
    obtain ⟨hin, hlt⟩ := List.mem_filter.mp (h.subset msg hmsg)
    exact ⟨hin, by simpa using hlt⟩
  refine ⟨fun msg hmsg => ?_, ?_, ?_⟩
  · rw [hflatten] at hmsg
    obtain hold | hin := List.mem_append.mp hmsg
    · exact (hbefore msg hold).1
    · exact hpage.subset msg hin
  · rw [hflatten, List.pairwise_append]
    exact ⟨h.sorted, hpage.sorted, fun msg hmsg msg' hmsg' =>
      (hbefore msg hmsg).2.le.trans (hpage.oldest_le hmsg')⟩
  · rw [hflatten]
    by_cases hclean : Clean rest (oldest :: newerMsgs) oldest
    · have hold := remaining_clean hpage hclean
      rw [momentsUnsplit_clean hrest hpage hclean, ← hold, ← h.complete_iff, hold]
      have hperm := (perm_older hrest hpage).trans List.perm_append_comm
      constructor
      · intro hall
        exact (List.perm_append_right_iff _).mp (hall.trans hperm)
      · intro hold
        exact (hold.append_right _).trans hperm.symm
    · refine iff_of_false (fun hall => hclean fun msg hmsg => ?_)
        (not_momentsUnsplit hrest hpage hclean)
      obtain ⟨hrow, hout⟩ := List.mem_filter.mp hmsg
      obtain hold | hin := List.mem_append.mp (hall.mem_iff.mpr hrow)
      · exact (hbefore msg hold).2
      · exact absurd hin (of_decide_eq_true hout)

theorem remaining_remaining (hbefore : ∀ t ∈ before, oldest.createdAt < t) :
    remaining (remaining messages before) (some oldest.createdAt) =
      remaining messages (some oldest.createdAt) := by
  unfold remaining
  rw [List.filter_filter]
  refine List.filter_congr fun msg _ => ?_
  cases before with
  | none => simp
  | some t =>
    have := hbefore t rfl
    by_cases hlt : msg.createdAt < oldest.createdAt
    · simp [hlt, hlt.trans this]
    · simp [hlt]

/-- The loop ends, and gives the pages. -/
theorem pages_spec (hlimit : 1 ≤ limit) {users : Users}
    (hrows : (rows.map Message.id).Nodup) (hpeer : (users.byId peerId).isSome = true)
    {answer : Option Time → List Message}
    (hanswer : ∀ before, IsHistory rows userId peerId before limit (answer before)) (fuel : ℕ)
    (before : Option Time)
    (hfuel : (remaining (history rows userId peerId) before).length < fuel) :
    ∃ pgs, pages (fun before => messageHistory users peerId (answer before)) fuel before =
        some (pgs.map (List.map MessageOut.modelValidate)) ∧
      PagesOf limit (remaining (history rows userId peerId) before) pgs := by
  have hnodup : ∀ before, ((remaining (history rows userId peerId) before).map
      Message.id).Nodup := fun before =>
    hrows.sublist ((List.filter_sublist.trans List.filter_sublist).map _)
  have hrespond : ∀ before, messageHistory users peerId (answer before) =
      .ok ((answer before).map MessageOut.modelValidate) := fun before => by
    unfold messageHistory
    rw [if_neg]
    rw [Option.isNone_iff_eq_none, ← ne_eq, ← Option.isSome_iff_ne_none]
    exact hpeer
  induction fuel generalizing before with
  | zero => exact absurd hfuel (Nat.not_lt_zero _)
  | succ fuel ih =>
    have hpage := page_of_isHistory (hanswer before)
    unfold pages
    rw [hrespond]
    cases hmessages : answer before with
    | nil =>
      rw [hmessages] at hpage
      have hnil : remaining (history rows userId peerId) before = [] := by
        have := hpage.length
        rw [List.length_nil] at this
        exact List.eq_nil_of_length_eq_zero (by omega)
      rw [hnil]
      exact ⟨[], rfl, pagesOf_nil⟩
    | cons oldest newerMsgs =>
      rw [hmessages] at hpage
      obtain ⟨-, hbefore⟩ := List.mem_filter.mp (hpage.subset oldest List.mem_cons_self)
      have hrest : remaining (remaining (history rows userId peerId) before)
          (some oldest.createdAt) =
          remaining (history rows userId peerId) (some oldest.createdAt) :=
        remaining_remaining fun t ht => by
          rw [Option.mem_def.mp ht] at hbefore
          simpa using hbefore
      have hshorter : (remaining (history rows userId peerId) (some oldest.createdAt)).length <
          (remaining (history rows userId peerId) before).length := by
        rw [← hrest]
        refine List.length_filter_lt_length_iff_exists.mpr
          ⟨oldest, hpage.subset oldest List.mem_cons_self, ?_⟩
        simp
      obtain ⟨pgs, hpgs, hof⟩ := ih (some oldest.createdAt) (by omega)
      refine ⟨(oldest :: newerMsgs) :: pgs, ?_, ?_⟩
      · show (pages _ fuel (some oldest.createdAt)).map _ = _
        rw [hpgs]
        rfl
      · rw [← hrest] at hof
        exact hof.cons (hnodup before) hpage

/-! ## The whole history -/

theorem perm_modelValidate {messages' : List Message} (h' : (messages'.map Message.id).Nodup)
    (hsubset : ∀ msg ∈ messages, msg ∈ messages') :
    (messages.map MessageOut.modelValidate).Perm (messages'.map MessageOut.modelValidate) ↔
      messages.Perm messages' := by
  constructor
  · intro h
    have hids : (messages.map Message.id).Perm (messages'.map Message.id) := by
      have := h.map MessageOut.id
      rw [List.map_map, List.map_map] at this
      exact this
    have hnodup : (messages.map Message.id).Nodup := hids.nodup_iff.mpr h'
    have hlength : messages'.length ≤ messages.length := by
      have := hids.length_eq
      rw [List.length_map, List.length_map] at this
      exact this.ge
    exact (List.subperm_of_subset (hnodup.of_map _) hsubset).perm_of_length_le hlength
  · intro h
    exact h.map _

/-- The paging ends after at most one page for every message, whatever order the database
    gives to messages of one moment. It has every message once, in order, exactly when no
    moment is split between pages. -/
theorem paging_complete_iff {users : Users} (hlimit : 1 ≤ limit)
    (hrows : (rows.map Message.id).Nodup) (hpeer : (users.byId peerId).isSome = true)
    {answer : Option Time → List Message}
    (hanswer : ∀ before, IsHistory rows userId peerId before limit (answer before)) {fuel : ℕ}
    (hfuel : (history rows userId peerId).length < fuel) :
    ∃ pgs, pages (fun before => messageHistory users peerId (answer before)) fuel none = some pgs ∧
      (Complete rows userId peerId pgs ↔ MomentsUnsplit limit (history rows userId peerId)) := by
  have hall : remaining (history rows userId peerId) none = history rows userId peerId :=
    List.filter_eq_self.mpr fun _ _ => rfl
  have hfuel' : (remaining (history rows userId peerId) none).length < fuel := by rwa [hall]
  obtain ⟨pgs, hpgs, hof⟩ := pages_spec hlimit hrows hpeer hanswer fuel none hfuel'
  rw [hall] at hof
  refine ⟨_, hpgs, ?_⟩
  have hflatten : (pgs.map (List.map MessageOut.modelValidate)).reverse.flatten =
      pgs.reverse.flatten.map MessageOut.modelValidate := by
    rw [← List.map_reverse, List.map_flatten]
  have hids : ((history rows userId peerId).map Message.id).Nodup :=
    hrows.sublist (List.filter_sublist.map _)
  unfold Complete
  rw [hflatten, ← hof.complete_iff, perm_modelValidate hids hof.subset]
  refine and_iff_left ?_
  rw [List.pairwise_map]
  exact hof.sorted

/-! ## Two messages of one moment -/

/-- A message to `sampleUser` from `sampleAdmin`. -/
def atOnce (id : UUID) : Message := { orphan with id := id, senderId := some 1 }

def twoAtOnce : MessageRows := [atOnce 1, atOnce 2]

/-- The first message, while the cursor is behind it. -/
def firstAtOnce (before : Option Time) : List Message :=
  if before.all ((atOnce 1).createdAt < ·) then [atOnce 1] else []

theorem isHistory_firstAtOnce (before : Option Time) :
    IsHistory twoAtOnce 7 1 before 1 (firstAtOnce before) := by
  unfold firstAtOnce
  have hselected : twoAtOnce.filter (inHistory 7 1 before) =
      if before.all ((atOnce 1).createdAt < ·) then twoAtOnce else [] := by
    rw [filter_inHistory]
    have hall : history twoAtOnce 7 1 = twoAtOnce := by decide
    rw [hall]
    unfold remaining twoAtOnce
    split_ifs with hbefore
    · rw [List.filter_eq_self]
      intro msg hmsg
      obtain rfl | hmsg := List.mem_cons.mp hmsg
      · exact hbefore
      · rw [List.mem_singleton.mp hmsg]
        exact hbefore
    · rw [List.filter_eq_nil_iff]
      intro msg hmsg
      obtain rfl | hmsg := List.mem_cons.mp hmsg
      · exact hbefore
      · rw [List.mem_singleton.mp hmsg]
        exact hbefore
  unfold IsHistory
  rw [hselected]
  split_ifs <;> decide

/-- In pages of one, one of two messages of the same moment is lost. -/
theorem equal_moments_lost : (twoAtOnce.map Message.id).Nodup ∧
    (∀ before, IsHistory twoAtOnce 7 1 before 1 (firstAtOnce before)) ∧
    ∃ pgs, pages (fun before => messageHistory [sampleUser, sampleAdmin] 1 (firstAtOnce before)) 3
      none = some pgs ∧ ¬ Complete twoAtOnce 7 1 pgs := by
  refine ⟨by decide, isHistory_firstAtOnce, [[.modelValidate (atOnce 1)]], by decide +kernel, ?_⟩
  rintro ⟨hperm, -⟩
  exact absurd hperm.length_eq (by decide)

theorem paging_atOnce : ∃ pgs,
    pages (fun before => messageHistory [sampleUser, sampleAdmin] 1 (firstAtOnce before)) 3 none =
      some pgs ∧ (Complete twoAtOnce 7 1 pgs ↔ MomentsUnsplit 1 (history twoAtOnce 7 1)) :=
  paging_complete_iff le_rfl (by decide) (by decide) isHistory_firstAtOnce (by decide)

end IronLink.Messages
