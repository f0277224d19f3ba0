import IronLink.Broadcasts.Server
import IronLink.Lib.Calls
import IronLink.Lib.Run

/-!
# Overlapping acknowledgements

`ack_broadcast` (app/api/routes/broadcasts.py:54-72) looks for the broadcast, looks for an
acknowledgement and commits a new one, while other calls, of the same user on another device too,
do the same; `ix_broadcast_ack_unique` (app/models/broadcast.py:53) refuses a second row.

Results:
* `acks_sound`: in every interleaving a user has one row at most for a broadcast, each added by
  one call, and is shown what none of their calls has found or left acknowledged.
* `ack_alone`: a call with nothing in between is `ackBroadcast`.
-/

namespace IronLink.Broadcasts

open Lib Auth

/-! ## Model -/

/-- What a call of `ack_broadcast` does next. -/
inductive AckPc
  /-- `broadcast = await db.scalar(…)` -/
  | broadcast
  /-- `existing = await db.scalar(…)` -/
  | existing
  | commit
  deriving DecidableEq

/-- A call of `ack_broadcast`, with the row it is about. -/
structure AckCall where
  row : BroadcastAck
  pc : AckPc
  deriving DecidableEq

/-- How a call ends. -/
inductive AckAnswer
  | notFound
  /-- the row was there -/
  | present
  | added
  /-- the index refuses the row -/
  | duplicate
  /-- the commit raises for another reason -/
  | raised
  deriving DecidableEq

def AckAnswer.status : AckAnswer → ℕ
  | .notFound => 404
  | .present => 204
  | .added => 204
  | .duplicate => 500
  | .raised => 500

/-- The server; `answered` records the calls that have ended. -/
structure AckRun where
  now : Time
  tables : Tables
  calls : List AckCall
  answered : List (BroadcastAck × AckAnswer)

/-- Nothing has been broadcast. -/
def AckRun.init (now : Time) (users : List Member) : AckRun := ⟨now, ⟨users, [], [], []⟩, [], []⟩

inductive AckAction
  /-- `POST /admin/broadcast` -/
  | send (creds : Option AccessToken) (body : BroadcastIn) (id : UUID)
      (push : List String → Except HttpError ℕ)
  /-- `POST /broadcasts/{id}/ack`, up to `get_current_user` -/
  | ack (creds : Option AccessToken) (id : UUID)
  /-- the next step of the call `i`; `ok`: the connection to the database holds -/
  | next (i : ℕ) (ok : Bool)
  | tick (d : ℕ)

/-- The call `i` ends. -/
def AckRun.finish (s : AckRun) (i : ℕ) (c : AckCall) (answer : AckAnswer) : AckRun :=
  { s with calls := s.calls.eraseIdx i, answered := s.answered ++ [(c.row, answer)] }

def AckRun.moves (s : AckRun) (i : ℕ) (c : AckCall) (pc : AckPc) : AckRun :=
  { s with calls := s.calls.set i { c with pc := pc } }

/-- `ack_broadcast` from one `await` to the next (app/api/routes/broadcasts.py:60-72). -/
def AckCall.next (s : AckRun) (i : ℕ) (ok : Bool) (c : AckCall) : AckRun :=
  if !ok then s.finish i c .raised
  else
    match c.pc with
    | .broadcast =>
      if s.tables.broadcasts.any fun b => b.id = c.row.broadcastId then s.moves i c .existing
      else s.finish i c .notFound
    | .existing =>
      if s.tables.acked c.row.userId c.row.broadcastId then s.finish i c .present
      else s.moves i c .commit
    | .commit =>
      if s.tables.acked c.row.userId c.row.broadcastId then s.finish i c .duplicate
      else
        { s.finish i c .added with
          tables := { s.tables with acks := s.tables.acks ++ [c.row] } }

def ackStep (s : AckRun) : AckAction → Option AckRun
  | .send creds body id push =>
    some { s with tables := (sendBroadcast s.tables s.now creds body id push).tables }
  | .ack creds id =>
    match getCurrentUser (s.tables.users.map Member.toUser) s.now creds with
    | .error _ => some s
    | .ok user => some { s with calls := s.calls ++ [⟨⟨id, user.id⟩, .broadcast⟩] }
  | .next i ok => (s.calls[i]?).map (AckCall.next s i ok)
  | .tick d => some { s with now := s.now + d }

/-! ## Properties -/

/-- The call has found the acknowledgement or left it. -/
def AckAnswer.acknowledged : AckAnswer → Bool
  | .notFound => false
  | .present => true
  | .added => true
  | .duplicate => true
  | .raised => false

/-- The rows that the calls have added. -/
def AckRun.added (s : AckRun) : List BroadcastAck :=
  (s.answered.filter fun a => a.2 = .added).map Prod.fst

/-- What the calls have left. -/
structure AcksSound (s : AckRun) : Prop where
  once : s.tables.acks.Nodup
  added : s.tables.acks = s.added
  kept : ∀ a ∈ s.answered, a.2.acknowledged = true → a.1 ∈ s.tables.acks
  lists : ∀ (member : Member) (id : UUID), Lists s.tables member id ↔
    (∃ b ∈ s.tables.broadcasts, b.id = id ∧
      (b.department = none ∨ b.department = member.department)) ∧
    ∀ a ∈ s.answered, a.1 = ⟨id, member.id⟩ → a.2.acknowledged = false

/-! ## The invariant -/

variable {s s' : AckRun} {i : ℕ} {c : AckCall} {answer : AckAnswer}

theorem acked_iff {tables : Tables} {row : BroadcastAck} :
    tables.acked row.userId row.broadcastId = true ↔ row ∈ tables.acks := by
  unfold Tables.acked
  simp only [List.any_eq_true, Bool.and_eq_true, decide_eq_true_eq]
  constructor
  · rintro ⟨ack, hack, hbroadcast, huser⟩
    have : ack = row := by
      cases ack
      cases row
      simp_all
    exact this ▸ hack
  · exact fun h => ⟨row, h, rfl, rfl⟩

/-- What holds in every run. -/
structure AckInv (s : AckRun) : Prop where
  tables : TablesInv s.tables
  /-- A call that has found its broadcast finds it ever after. -/
  calls : ∀ c ∈ s.calls, c.pc ≠ .broadcast → ∃ b ∈ s.tables.broadcasts, b.id = c.row.broadcastId
  once : s.tables.acks.Nodup
  added : s.tables.acks = s.added
  kept : ∀ a ∈ s.answered, a.2.acknowledged = true → a.1 ∈ s.tables.acks

theorem ackInv_init (now : Time) (users : List Member) : AckInv (AckRun.init now users) where
  tables := ⟨.nil, fun _ h => absurd h List.not_mem_nil⟩
  calls := fun _ h => absurd h List.not_mem_nil
  once := .nil
  added := rfl
  kept := fun _ h => absurd h List.not_mem_nil

/-- A row that is there was added by a call, and one that a call has seen is there. -/
theorem AckInv.mem_acks_iff (h : AckInv s) (row : BroadcastAck) :
    row ∈ s.tables.acks ↔ ∃ a ∈ s.answered, a.1 = row ∧ a.2.acknowledged = true := by
  constructor
  · intro hrow
    rw [h.added] at hrow
    obtain ⟨a, ha, rfl⟩ := List.mem_map.mp hrow
    obtain ⟨hmem, hadded⟩ := List.mem_filter.mp ha
    refine ⟨a, hmem, rfl, ?_⟩
    rw [of_decide_eq_true hadded]
    rfl
  · rintro ⟨a, ha, rfl, hack⟩
    exact h.kept a ha hack

theorem AckInv.sound (h : AckInv s) : AcksSound s where
  once := h.once
  added := h.added
  kept := h.kept
  lists := fun member id => by
    rw [lists_iff, and_comm]
    refine and_congr_right fun _ => ?_
    have hrow : s.tables.acked member.id id = true ↔ _ :=
      acked_iff.trans (h.mem_acks_iff ⟨id, member.id⟩)
    rw [← Bool.not_eq_true, hrow, not_exists]
    simp only [not_and, Bool.not_eq_true]

/-! ## Each step keeps the invariant -/

theorem added_concat (s : AckRun) (i : ℕ) (c : AckCall) (answer : AckAnswer) :
    (s.finish i c answer).added = s.added ++ if answer = .added then [c.row] else [] := by
  unfold AckRun.added AckRun.finish
  dsimp only
  rw [List.filter_append, List.map_append]
  split_ifs with hadded <;> simp [hadded]

/-- A call that ends without a row of its own. -/
theorem AckInv.finish (h : AckInv s) (i : ℕ) (hadded : answer ≠ .added)
    (hkept : answer.acknowledged = true → c.row ∈ s.tables.acks) :
    AckInv (s.finish i c answer) where
  tables := h.tables
  calls := fun x hx => h.calls x (List.mem_of_mem_eraseIdx hx)
  once := h.once
  added := by
    rw [added_concat, if_neg hadded, List.append_nil]
    exact h.added
  kept := fun a ha => by
    obtain hold | hnew := List.mem_append.mp ha
    · exact h.kept a hold
    · obtain rfl := List.mem_singleton.mp hnew
      exact hkept

theorem AckInv.moves (h : AckInv s) (i : ℕ) {pc : AckPc}
    (hexists : ∃ b ∈ s.tables.broadcasts, b.id = c.row.broadcastId) : AckInv (s.moves i c pc) :=
  { h with calls := forall_set h.calls fun _ => hexists }

theorem ackInv_next (h : AckInv s) (ok : Bool) (hc : s.calls[i]? = some c) :
    AckInv (c.next s i ok) := by
  have hmem : c ∈ s.calls := List.mem_of_getElem? hc
  unfold AckCall.next
  cases ok with
  | false => exact h.finish i AckAnswer.noConfusion Bool.noConfusion
  | true =>
    simp only [Bool.not_true, Bool.false_eq_true, if_false]
    cases hpc : c.pc with
    | broadcast =>
      dsimp only
      split_ifs with hexists
      · obtain ⟨b, hb, hid⟩ := List.any_eq_true.mp hexists
        exact h.moves i ⟨b, hb, of_decide_eq_true hid⟩
      · exact h.finish i AckAnswer.noConfusion Bool.noConfusion
    | existing =>
      have hexists := h.calls c hmem (by rw [hpc]; exact AckPc.noConfusion)
      dsimp only
      split_ifs with hacked
      · exact h.finish i AckAnswer.noConfusion fun _ => acked_iff.mp hacked
      · exact h.moves i hexists
    | commit =>
      have hexists := h.calls c hmem (by rw [hpc]; exact AckPc.noConfusion)
      dsimp only
      split_ifs with hacked
      · exact h.finish i AckAnswer.noConfusion fun _ => acked_iff.mp hacked
      have hnew : c.row ∉ s.tables.acks := fun hrow => hacked (acked_iff.mpr hrow)
      constructor
      · refine ⟨h.tables.nodup, fun ack hack => ?_⟩
        obtain hold | rfl := (List.mem_append.mp hack).imp_right List.mem_singleton.mp
        · exact h.tables.acks ack hold
        · exact hexists
      · exact fun x hx => h.calls x (List.mem_of_mem_eraseIdx hx)
      · show (s.tables.acks ++ [c.row]).Nodup
        rw [← List.concat_eq_append]
        exact h.once.concat hnew
      · show s.tables.acks ++ [c.row] = (s.finish i c .added).added
        rw [added_concat, if_pos rfl, h.added]
      · intro a ha hack
        obtain hold | rfl := (List.mem_append.mp ha).imp_right List.mem_singleton.mp
        · exact List.mem_append_left _ (h.kept a hold hack)
        · exact List.mem_append_right _ (List.mem_singleton.mpr rfl)

theorem ackInv_step (s : AckRun) (a : AckAction) (s' : AckRun) (h : AckInv s)
    (hs : ackStep s a = some s') : AckInv s' := by
  cases a with
  | send creds body id push =>
    obtain rfl := Option.some.inj hs
    obtain ⟨htables, hgrows⟩ := tablesInv_send h.tables s.now creds body id push
    have hacks : (sendBroadcast s.tables s.now creds body id push).tables.acks =
        s.tables.acks := by
      obtain ⟨e, heq⟩ | ⟨admin, -, heq⟩ := sendBroadcast_cases s.tables s.now creds body id push
      · rw [heq]
      · rw [heq]
        rfl
    constructor
    · exact htables
    · intro c hc hpc
      obtain ⟨b, hb, hid⟩ := h.calls c hc hpc
      exact ⟨b, hgrows.broadcasts hb, hid⟩
    · show (sendBroadcast s.tables s.now creds body id push).tables.acks.Nodup
      rw [hacks]
      exact h.once
    · exact hacks.trans h.added
    · intro a ha hack
      show a.1 ∈ (sendBroadcast s.tables s.now creds body id push).tables.acks
      rw [hacks]
      exact h.kept a ha hack
  | ack creds id =>
    simp only [ackStep] at hs
    split at hs <;> obtain rfl := Option.some.inj hs
    · exact h
    · refine { h with calls := fun c hc => ?_ }
      obtain hold | rfl := (List.mem_append.mp hc).imp_right List.mem_singleton.mp
      · exact h.calls c hold
      · exact fun hpc => absurd rfl hpc
  | next i ok =>
    obtain ⟨c, hc, rfl⟩ := Option.map_eq_some_iff.mp hs
    exact ackInv_next h ok hc
  | tick d =>
    obtain rfl := Option.some.inj hs
    exact ⟨h.tables, h.calls, h.once, h.added, h.kept⟩

/-! ## Runs -/

/-- A call that has just begun and is not disturbed ends as `ackBroadcast` does. -/
theorem ack_alone (s : AckRun) (row : BroadcastAck) :
    ∃ answer, Drives ackStep (.next s.calls.length true)
      { s with calls := s.calls ++ [⟨row, .broadcast⟩] }
      { s with
        tables := (ackBroadcast s.tables row.userId row.broadcastId).1
        answered := s.answered ++ [(row, answer)] } ∧
      ((ackBroadcast s.tables row.userId row.broadcastId).2 = .ok () ↔ answer.status = 204) := by
  have hat : ∀ pc, (s.calls ++ [(⟨row, pc⟩ : AckCall)])[s.calls.length]? = some ⟨row, pc⟩ :=
    fun pc => by simp
  have hset : ∀ pc pc', (s.calls ++ [(⟨row, pc⟩ : AckCall)]).set s.calls.length ⟨row, pc'⟩ =
      s.calls ++ [⟨row, pc'⟩] := fun pc pc' => by simp
  unfold ackBroadcast
  by_cases hexists : s.tables.broadcasts.any (fun b => b.id = row.broadcastId) = true
  · rw [if_pos hexists]
    have hfirst : ackStep { s with calls := s.calls ++ [⟨row, .broadcast⟩] }
        (.next s.calls.length true) = some { s with calls := s.calls ++ [⟨row, .existing⟩] } := by
      simp only [ackStep, hat, Option.map_some, AckCall.next, Bool.not_true, Bool.false_eq_true,
        if_false, hexists, if_true, AckRun.moves, hset]
    cases hacked : s.tables.acked row.userId row.broadcastId with
    | true =>
      refine ⟨.present, .head hfirst (.head ?_ (.refl _ _ _)), iff_of_true rfl rfl⟩
      simp only [ackStep, hat, Option.map_some, AckCall.next, Bool.not_true, Bool.false_eq_true,
        if_false, hacked, if_true, AckRun.finish, eraseIdx_concat_length]
    | false =>
      have hsecond : ackStep { s with calls := s.calls ++ [⟨row, .existing⟩] }
          (.next s.calls.length true) = some { s with calls := s.calls ++ [⟨row, .commit⟩] } := by
        simp only [ackStep, hat, Option.map_some, AckCall.next, Bool.not_true, Bool.false_eq_true,
          if_false, hacked, AckRun.moves, hset]
      refine ⟨.added, .head hfirst (.head hsecond (.head ?_ (.refl _ _ _))), iff_of_true rfl rfl⟩
      simp only [ackStep, hat, Option.map_some, AckCall.next, Bool.not_true, Bool.false_eq_true,
        if_false, hacked, AckRun.finish, eraseIdx_concat_length]
  · rw [if_neg hexists]
    refine ⟨.notFound, .head ?_ (.refl _ _ _), iff_of_false (fun h => by cases h) (by decide)⟩
    simp only [ackStep, hat, Option.map_some, AckCall.next, Bool.not_true, Bool.false_eq_true,
      if_false, hexists, AckRun.finish, eraseIdx_concat_length]

/-- **Acknowledgements.** However calls overlap, a user has one row at most for a broadcast, each
    row was added by one call, and the banner is shown as long as no call of the user has found
    or left the row. -/
theorem acks_sound (now : Time) (users : List Member) (as : List AckAction) (s' : AckRun)
    (hr : run ackStep (AckRun.init now users) as = some s') : AcksSound s' :=
  (run_invariant ackInv_step (ackInv_init now users) hr).sound

/-- Two devices of a user acknowledge a broadcast at once: the second is answered 500. -/
theorem acks_sound_twoDevices : ∃ s',
    run ackStep (AckRun.init 0 [⟨sampleUser, none⟩, ⟨sampleAdmin, none⟩])
      [.send (some (createAccessToken 1 1 .ADMIN 0)) ⟨"Alarm", "Report to base", none⟩ 5
          (fun _ => .ok 0),
        .ack (some (createAccessToken 7 1 .SOLDIER 0)) 5,
        .ack (some (createAccessToken 7 1 .SOLDIER 0)) 5,
        .next 0 true, .next 1 true, .next 0 true, .next 1 true, .next 0 true, .next 0 true] =
      some s' ∧
    s'.answered.map (·.2.status) = [204, 500] ∧ AcksSound s' := by
  have hrun : (run ackStep (AckRun.init 0 [⟨sampleUser, none⟩, ⟨sampleAdmin, none⟩])
      [.send (some (createAccessToken 1 1 .ADMIN 0)) ⟨"Alarm", "Report to base", none⟩ 5
          (fun _ => .ok 0),
        .ack (some (createAccessToken 7 1 .SOLDIER 0)) 5,
        .ack (some (createAccessToken 7 1 .SOLDIER 0)) 5,
        .next 0 true, .next 1 true, .next 0 true, .next 1 true, .next 0 true, .next 0 true]).map
      (·.answered.map (·.2.status)) = some [204, 500] := by decide +kernel
  obtain ⟨s', hs', hstatus⟩ := Option.map_eq_some_iff.mp hrun
  exact ⟨s', hs', hstatus, acks_sound _ _ _ s' hs'⟩

end IronLink.Broadcasts
