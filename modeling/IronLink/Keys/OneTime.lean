import IronLink.Keys.PreKeys
import IronLink.Lib.Calls

/-!
# One-time use of the pre-keys

An initiator fetches all pre-keys of a user (`get_prekeys`, backend/app/api/routes/keys.py)
and takes the first (`performX3DH`, frontend/lib/core/crypto/signal.dart); the user's side
consumes a pre-key by its id (`consume_pre_key`), in three Redis commands. Between the
fetch and the consumption nothing reserves the key.

Results:
* `oneTime_of_reserved`: in every run in which no key that another initiator was handed
  is still listed when a fetch is answered, and no consumption starts between the read and
  the deletion of another for the same key, each key serves one initiator and its private
  half is returned once.
* `first_key_twice`: two initiators that fetch in turn get the same key.
* `consume_alone`: the three commands without another in between do what `consumePreKey`
  does.
-/

namespace IronLink.Keys

open Lib

/-! ## Model -/

/-- The answer to `HGETALL`: the fields in some order. -/
abbrev Fields := List (Sigma fun _ : String => Bytes)

/-- `int(key_id)` on the texts of the hash, which are `str` of an `int` or a `bool`. -/
def decimal (text : String) : Option ℕ :=
  if text.toList.isEmpty then none
  else
    text.toList.foldlM (fun n c => if c.isDigit then some (10 * n + (c.toNat - 48)) else none) 0

/-- `get_prekeys` (backend/app/api/routes/keys.py:12-43) on the fields it reads. -/
def getPrekeys (fields : Fields) : Except Reply (List PublicPreKey) :=
  if fields.isEmpty then .error ⟨404, "error", "No prekeys found for user"⟩
  else
    match fields.mapM fun e => (decimal e.1).map fun keyId => (⟨e.2, keyId⟩ : PublicPreKey) with
    | none => .error ⟨500, "error", "Internal server error"⟩
    | some keys => .ok keys

/-- The field whose key an initiator uses: `fetchRemotePreKeys` skips keys that do not
    decode, `performX3DH` takes the first (core/crypto/signal.dart:208-240, 346). -/
def firstPreKey (decodes : Bytes → Bool) (fields : Fields) : Option String :=
  match getPrekeys fields with
  | .error _ => none
  | .ok _ => (fields.find? fun e => decodes e.2).map Sigma.fst

/-- The next Redis command of a `consume_pre_key` call. -/
inductive ConsumePc
  /-- `self.redis.hget(…, "private")` -/
  | hget
  /-- `pipe.execute()`: `HDEL` of the private and of the public half -/
  | hdel (priv : Bytes)
  /-- `self.redis.delete(…)` -/
  | delete (priv : Bytes)
  | done (result : Option Bytes)
  deriving DecidableEq

structure ConsumeCall where
  id : String
  pc : ConsumePc

/-- Redis, the clock and the calls in flight. `handed` records which initiator uses
    which key. -/
structure ServeState where
  now : Time
  store : PreKeyStore
  calls : List ConsumeCall
  handed : List (String × String)

/-- Any pre-keys at time `now`, none of them handed out. -/
def ServeState.init (now : Time) (store : PreKeyStore) : ServeState := ⟨now, store, [], []⟩

def ConsumeCall.goto (c : ConsumeCall) (pc : ConsumePc) : ConsumeCall := { c with pc := pc }

/-- The next command of the `i`-th call, `c`. -/
def consumeCommand (s : ServeState) (i : ℕ) (c : ConsumeCall) : Option ServeState :=
  match c.pc with
  | .hget =>
    some { s with
      calls := s.calls.set i
        (c.goto ((s.store.privateKey s.now c.id).elim (.done none) ConsumePc.hdel)) }
  | .hdel priv =>
    some { s with
      store := s.store.remove c.id
      calls := s.calls.set i (c.goto (.delete priv)) }
  | .delete priv =>
    some { s with
      store := { s.store with records := s.store.records.del c.id }
      calls := s.calls.set i (c.goto (.done (some priv))) }
  | .done _ => none

inductive ServeAction
  /-- `initiator` fetches, and `HGETALL` answers `fields` -/
  | fetch (initiator : String) (fields : Fields)
  | consume (id : String)
  | command (i : ℕ)
  | tick (d : ℕ)

def serveStep (decodes : Bytes → Bool) (s : ServeState) : ServeAction → Option ServeState
  | .fetch initiator fields =>
    if fields.Perm s.store.listed.entries then
      some { s with
        handed := ((firstPreKey decodes fields).map fun id => (initiator, id)).toList ++ s.handed }
    else none
  | .consume id => some { s with calls := s.calls ++ [⟨id, .hget⟩] }
  | .command i => s.calls[i]?.bind (consumeCommand s i)
  | .tick d => some { s with now := s.now + d }

/-! ## One use -/

/-- The call has read the private half and deleted it. -/
def ConsumePc.hasDeleted : ConsumePc → Bool
  | .delete _ => true
  | .done (some _) => true
  | _ => false

/-- It has returned it. -/
def ConsumePc.returned : ConsumePc → Bool
  | .done (some _) => true
  | _ => false

/-- It has read the private half and not deleted it. -/
def ConsumePc.holds : ConsumePc → Bool
  | .hdel _ => true
  | _ => false

/-- The calls for the key `id` that are where `p` says. -/
def ServeState.tally (s : ServeState) (p : ConsumePc → Bool) (id : String) : ℕ :=
  s.calls.countP fun c => c.id = id && p c.pc

/-- A pre-key serves one initiator, and one call returns its private half. -/
structure OneTime (s : ServeState) : Prop where
  handed : ∀ p ∈ s.handed, ∀ q ∈ s.handed, p.2 = q.2 → p.1 = q.1
  returned : ∀ id, s.tally ConsumePc.returned id ≤ 1

/-- A fetch finds no key in the hash that another initiator was handed. A call that reads
    a private half finds no other call that holds it. -/
def Reserved (s : ServeState) : ServeAction → Prop
  | .fetch initiator _ => ∀ p ∈ s.handed, p.2 ∈ s.store.listed.keys → p.1 = initiator
  | .command i => ∀ c ∈ s.calls[i]?, c.pc = .hget →
      (s.store.privateKey s.now c.id).isSome → s.tally ConsumePc.holds c.id = 0
  | _ => True

instance (s : ServeState) : (a : ServeAction) → Decidable (Reserved s a)
  | .fetch .. => by unfold Reserved; infer_instance
  | .command _ => by unfold Reserved; infer_instance
  | .consume _ => isTrue trivial
  | .tick _ => isTrue trivial

variable {decodes : Bytes → Bool} {s s' : ServeState} {i : ℕ} {c : ConsumeCall}
  {id : String} {priv : Bytes} {p : ConsumePc → Bool}

/-! ## Counting the calls for a key -/

/-- A call for another key moves on. -/
theorem tally_set_of_ne (hc : s.calls[i]? = some c) (pc : ConsumePc) (hid : c.id ≠ id) :
    (s.calls.set i (c.goto pc)).countP (fun c => c.id = id && p c.pc) = s.tally p id := by
  apply countP_set_same hc
  show (decide (c.id = id) && _) = (decide (c.id = id) && _)
  rw [decide_eq_false hid, Bool.false_and, Bool.false_and]

theorem tally_set_same (id : String) (hc : s.calls[i]? = some c) {pc : ConsumePc}
    (hp : p pc = p c.pc) :
    (s.calls.set i (c.goto pc)).countP (fun c => c.id = id && p c.pc) = s.tally p id := by
  apply countP_set_same hc
  show (decide (c.id = id) && p pc) = (decide (c.id = id) && p c.pc)
  rw [hp]

theorem tally_set_enter (hc : s.calls[i]? = some c) (pc : ConsumePc) (hp : p c.pc = false)
    (hp' : p pc = true) :
    (s.calls.set i (c.goto pc)).countP (fun c' => c'.id = c.id && p c'.pc) =
      s.tally p c.id + 1 := by
  apply countP_set_enter hc
  · rw [hp, Bool.and_false]
  · show (decide (c.id = c.id) && p pc) = true
    rw [hp', decide_eq_true rfl]
    rfl

theorem tally_set_leave (hc : s.calls[i]? = some c) (pc : ConsumePc) (hp : p c.pc = true)
    (hp' : p pc = false) :
    (s.calls.set i (c.goto pc)).countP (fun c' => c'.id = c.id && p c'.pc) + 1 =
      s.tally p c.id := by
  apply countP_set_leave hc
  · rw [hp, decide_eq_true rfl]
    rfl
  · show (decide (c.id = c.id) && p pc) = false
    rw [hp', Bool.and_false]

/-! ## The invariant -/

/-- What holds of a key in every guarded run: one call has read its private half at most,
    and once that call has deleted it, it is gone. -/
structure ReadOnce (s : ServeState) (id : String) : Prop where
  once : s.tally ConsumePc.holds id + s.tally ConsumePc.hasDeleted id ≤ 1
  gone : 0 < s.tally ConsumePc.hasDeleted id → s.store.records id = none

/-- What is counted for the key, and its record, are as before. -/
theorem ReadOnce.frame (h : ReadOnce s id) (hrecord : s'.store.records id = s.store.records id)
    (hholds : s'.tally ConsumePc.holds id = s.tally ConsumePc.holds id)
    (hdeleted : s'.tally ConsumePc.hasDeleted id = s.tally ConsumePc.hasDeleted id) :
    ReadOnce s' id := by
  refine ⟨?_, fun hpos => ?_⟩
  · rw [hholds, hdeleted]
    exact h.once
  · rw [hrecord]
    apply h.gone
    rwa [hdeleted] at hpos

/-- A private half that can be read has not been deleted. -/
theorem ReadOnce.none_deleted (h : ReadOnce s id) {now : Time}
    (hpriv : (s.store.privateKey now id).isSome) : s.tally ConsumePc.hasDeleted id = 0 := by
  by_contra hne
  have hnone := h.gone (Nat.pos_of_ne_zero hne)
  unfold PreKeyStore.privateKey TtlMap.get at hpriv
  rw [TtlMap.lookup_of_none hnone] at hpriv
  cases hpriv

theorem readOnce_hget (h : ∀ id, ReadOnce s id) (hg : Reserved s (.command i))
    (hc : s.calls[i]? = some c) (hpc : c.pc = .hget) (id : String) :
    ReadOnce { s with
      calls := s.calls.set i
        (c.goto ((s.store.privateKey s.now c.id).elim (.done none) ConsumePc.hdel)) } id := by
  cases hpriv : s.store.privateKey s.now c.id with
  | none =>
    refine (h id).frame rfl ?_ ?_
    · exact tally_set_same id hc (by rw [hpc]; rfl)
    · exact tally_set_same id hc (by rw [hpc]; rfl)
  | some priv =>
    by_cases hid : c.id = id
    · subst hid
      have hread : (s.store.privateKey s.now c.id).isSome := Option.isSome_of_mem hpriv
      have hholds := hg c hc hpc hread
      have hdeleted := (h c.id).none_deleted hread
      have hholds' := tally_set_enter (p := ConsumePc.holds) hc (.hdel priv)
        (by rw [hpc]; rfl) rfl
      have hdeleted' : (s.calls.set i (c.goto (.hdel priv))).countP
          (fun c' => c'.id = c.id && c'.pc.hasDeleted) = s.tally ConsumePc.hasDeleted c.id :=
        tally_set_same c.id hc (by rw [hpc]; rfl)
      refine ⟨?_, fun hpos => ?_⟩
      · show List.countP _ _ + List.countP _ _ ≤ 1
        rw [Option.elim_some, hholds', hdeleted', hholds, hdeleted]
      · change 0 < List.countP _ _ at hpos
        rw [Option.elim_some, hdeleted', hdeleted] at hpos
        exact absurd hpos (lt_irrefl 0)
    · refine (h id).frame rfl ?_ ?_
      · exact tally_set_of_ne hc _ hid
      · exact tally_set_of_ne hc _ hid

theorem readOnce_hdel (h : ∀ id, ReadOnce s id) (hc : s.calls[i]? = some c)
    (hpc : c.pc = .hdel priv) (id : String) :
    ReadOnce { s with
      store := s.store.remove c.id
      calls := s.calls.set i (c.goto (.delete priv)) } id := by
  by_cases hid : c.id = id
  · subst hid
    have hholds' := tally_set_leave (p := ConsumePc.holds) hc (.delete priv)
      (by rw [hpc]; rfl) rfl
    have hdeleted' := tally_set_enter (p := ConsumePc.hasDeleted) hc (.delete priv)
      (by rw [hpc]; rfl) rfl
    have honce := (h c.id).once
    refine ⟨?_, fun _ => TtlMap.del_self ..⟩
    unfold ServeState.tally at honce hholds' hdeleted' ⊢
    dsimp only
    omega
  · refine (h id).frame (TtlMap.del_of_ne (Ne.symm hid)) ?_ ?_
    · exact tally_set_of_ne hc _ hid
    · exact tally_set_of_ne hc _ hid

theorem readOnce_delete (h : ∀ id, ReadOnce s id) (hc : s.calls[i]? = some c)
    (hpc : c.pc = .delete priv) (id : String) :
    ReadOnce { s with
      store := { s.store with records := s.store.records.del c.id }
      calls := s.calls.set i (c.goto (.done (some priv))) } id := by
  have hholds' : (s.calls.set i (c.goto (.done (some priv)))).countP
      (fun c => c.id = id && c.pc.holds) = s.tally ConsumePc.holds id :=
    tally_set_same id hc (by rw [hpc]; rfl)
  have hdeleted' : (s.calls.set i (c.goto (.done (some priv)))).countP
      (fun c => c.id = id && c.pc.hasDeleted) = s.tally ConsumePc.hasDeleted id :=
    tally_set_same id hc (by rw [hpc]; rfl)
  by_cases hid : c.id = id
  · subst hid
    refine ⟨?_, fun _ => TtlMap.del_self ..⟩
    show List.countP _ _ + List.countP _ _ ≤ 1
    rw [hholds', hdeleted']
    exact (h c.id).once
  · exact (h id).frame (TtlMap.del_of_ne (Ne.symm hid)) hholds' hdeleted'

/-! ## Every run -/

/-- What holds in every guarded run. -/
structure ServeInv (s : ServeState) : Prop where
  handed : ∀ p ∈ s.handed, ∀ q ∈ s.handed, p.2 = q.2 → p.1 = q.1
  read : ∀ id, ReadOnce s id

/-- The first key is one of the listed ones. -/
theorem mem_keys_of_firstPreKey {fields : Fields} (hperm : fields.Perm s.store.listed.entries)
    (hfirst : firstPreKey decodes fields = some id) : id ∈ s.store.listed.keys := by
  unfold firstPreKey at hfirst
  cases hkeys : getPrekeys fields with
  | error e =>
    rw [hkeys] at hfirst
    cases hfirst
  | ok keys =>
    rw [hkeys] at hfirst
    obtain ⟨e, he, rfl⟩ := Option.map_eq_some_iff.mp hfirst
    exact List.mem_map_of_mem (hperm.mem_iff.mp (List.mem_of_find?_eq_some he))

theorem serveInv_fetch (h : ServeInv s) {initiator : String} {fields : Fields}
    (hg : Reserved s (.fetch initiator fields)) (hperm : fields.Perm s.store.listed.entries) :
    ServeInv { s with
      handed :=
        ((firstPreKey decodes fields).map fun id => (initiator, id)).toList ++ s.handed } := by
  cases hfirst : firstPreKey decodes fields with
  | none => exact ⟨h.handed, h.read⟩
  | some id =>
    have hlisted := mem_keys_of_firstPreKey hperm hfirst
    have hsame : ∀ q ∈ s.handed, q.2 = id → q.1 = initiator := fun q hq hid =>
      hg q hq (hid ▸ hlisted)
    refine ⟨fun p hp q hq hid => ?_, fun id => (h.read id).frame rfl rfl rfl⟩
    obtain rfl | hp := List.mem_cons.mp hp
    · obtain rfl | hq := List.mem_cons.mp hq
      · rfl
      · exact (hsame q hq hid.symm).symm
    · obtain rfl | hq := List.mem_cons.mp hq
      · exact hsame p hp hid
      · exact h.handed p hp q hq hid

theorem serveInv_step (s : ServeState) (a : ServeAction) (s' : ServeState) (h : ServeInv s)
    (hg : Reserved s a) (hs : serveStep decodes s a = some s') : ServeInv s' := by
  cases a with
  | fetch initiator fields =>
    unfold serveStep at hs
    dsimp only at hs
    split_ifs at hs with hperm
    cases hs
    exact serveInv_fetch h hg hperm
  | consume id =>
    cases hs
    have hnew : ∀ (p : ConsumePc → Bool) id', p .hget = false →
        (s.calls ++ [(⟨id, .hget⟩ : ConsumeCall)]).countP (fun c => c.id = id' && p c.pc) =
          s.tally p id' := by
      intro p id' hp
      rw [List.countP_append, List.countP_singleton]
      dsimp only
      rw [hp, Bool.and_false]
      rfl
    exact ⟨h.handed, fun id' => (h.read id').frame rfl (hnew ConsumePc.holds id' rfl)
      (hnew ConsumePc.hasDeleted id' rfl)⟩
  | command i =>
    obtain ⟨c, hc, hs⟩ := Option.bind_eq_some_iff.mp hs
    unfold consumeCommand at hs
    cases hpc : c.pc with
    | hget =>
      rw [hpc] at hs
      cases hs
      exact ⟨h.handed, readOnce_hget h.read hg hc hpc⟩
    | hdel priv =>
      rw [hpc] at hs
      cases hs
      exact ⟨h.handed, readOnce_hdel h.read hc hpc⟩
    | delete priv =>
      rw [hpc] at hs
      cases hs
      exact ⟨h.handed, readOnce_delete h.read hc hpc⟩
    | done result =>
      rw [hpc] at hs
      cases hs
  | tick d =>
    cases hs
    exact ⟨h.handed, fun id => (h.read id).frame rfl rfl rfl⟩

/-- A call that has returned the private half has deleted it. -/
theorem ConsumePc.hasDeleted_of_returned {pc : ConsumePc} (h : pc.returned = true) :
    pc.hasDeleted = true := by
  cases pc with
  | done result =>
    cases result with
    | none => cases h
    | some priv => rfl
  | _ => cases h

theorem ServeInv.oneTime (h : ServeInv s) : OneTime s := by
  refine ⟨h.handed, fun id => ?_⟩
  have hle : s.tally ConsumePc.returned id ≤ s.tally ConsumePc.hasDeleted id := by
    apply List.countP_mono_left
    intro c _ hc
    obtain ⟨hid, hreturned⟩ := Bool.and_eq_true_iff.mp hc
    exact Bool.and_eq_true_iff.mpr ⟨hid, ConsumePc.hasDeleted_of_returned hreturned⟩
  have honce := (h.read id).once
  omega

/-- **One use.** From any pre-keys, in every run whose steps are all reserved, no pre-key
    is handed to two initiators, and the private half of each is returned by one
    `consume_pre_key` call at most. -/
theorem oneTime_of_reserved (decodes : Bytes → Bool) (now : Time) (store : PreKeyStore)
    (as : List ServeAction) (s' : ServeState)
    (hrun : run (serveStep decodes) (ServeState.init now store) as = some s')
    (hg : Guarded (serveStep decodes) Reserved (ServeState.init now store) as) : OneTime s' := by
  have hinit : ServeInv (ServeState.init now store) := by
    refine ⟨fun p hp => (by cases hp), fun id => ⟨Nat.zero_le 1, fun hpos => ?_⟩⟩
    exact absurd hpos (lt_irrefl 0)
  exact (hg.invariant serveInv_step hinit hrun).oneTime

/-! ## Two initiators -/

/-- Two pre-keys, `5` and `7`. -/
def sampleStore : PreKeyStore :=
  (PreKeyStore.empty.put 0 "7" [14] [28]).put 0 "5" [10] [20]

/-- Two initiators, one after the other: the key of the first is consumed before the
    second fetches. -/
theorem oneTime_inTurn :
    ∃ s', run (serveStep fun _ => true) (ServeState.init 0 sampleStore)
        [.fetch "alice" [⟨"5", [20]⟩, ⟨"7", [28]⟩], .consume "5", .command 0, .command 0,
          .command 0, .fetch "bob" [⟨"7", [28]⟩], .consume "5", .command 1] = some s' ∧
      s'.handed = [("bob", "7"), ("alice", "5")] ∧ OneTime s' := by
  have hrun : (run (serveStep fun _ => true) (ServeState.init 0 sampleStore)
      [.fetch "alice" [⟨"5", [20]⟩, ⟨"7", [28]⟩], .consume "5", .command 0, .command 0,
        .command 0, .fetch "bob" [⟨"7", [28]⟩], .consume "5", .command 1]).map
      ServeState.handed = some [("bob", "7"), ("alice", "5")] := by
    decide +kernel
  obtain ⟨s', hs', hhanded⟩ := Option.map_eq_some_iff.mp hrun
  exact ⟨s', hs', hhanded,
    oneTime_of_reserved _ 0 sampleStore _ s' hs' (by decide +kernel)⟩

/-- Two initiators fetch before either key is consumed: both use the first one. -/
theorem first_key_twice :
    ¬ ∀ decodes now store as s',
      run (serveStep decodes) (ServeState.init now store) as = some s' → OneTime s' := by
  intro h
  have hrun : (run (serveStep fun _ => true) (ServeState.init 0 sampleStore)
      [.fetch "alice" [⟨"5", [20]⟩, ⟨"7", [28]⟩],
        .fetch "bob" [⟨"5", [20]⟩, ⟨"7", [28]⟩]]).map ServeState.handed =
      some [("bob", "5"), ("alice", "5")] := by
    decide +kernel
  obtain ⟨s', hs', hhanded⟩ := Option.map_eq_some_iff.mp hrun
  have hone := (h _ _ _ _ s' hs').handed ("bob", "5") (by rw [hhanded]; decide) ("alice", "5")
    (by rw [hhanded]; decide) rfl
  exact absurd hone (by decide)

/-! ## A call alone -/

theorem serveStep_command (hc : s.calls[i]? = some c) :
    serveStep decodes s (.command i) = consumeCommand s i c := by
  show s.calls[i]?.bind _ = _
  rw [hc, Option.bind_some]

/-- A call whose commands run without any other step in between returns what
    `consumePreKey` computes, and leaves the keys as it does. -/
theorem consume_alone (decodes : Bytes → Bool) (s : ServeState) (id : String) :
    ∃ m s' c, serveStep decodes s (.consume id) = some m ∧
      Drives (serveStep decodes) (.command s.calls.length) m s' ∧
      s'.calls[s.calls.length]? = some c ∧ s'.store = (consumePreKey s.store s.now id).1 ∧
      c.pc = .done (consumePreKey s.store s.now id).2 := by
  let m : ServeState := { s with calls := s.calls ++ [⟨id, .hget⟩] }
  have hcall : m.calls[s.calls.length]? = some ⟨id, .hget⟩ := List.getElem?_concat_length
  have hget : serveStep decodes m (.command s.calls.length) =
      consumeCommand m s.calls.length ⟨id, .hget⟩ := serveStep_command hcall
  unfold consumePreKey
  cases hpriv : s.store.privateKey s.now id with
  | none =>
    have hnext : consumeCommand m s.calls.length ⟨id, .hget⟩ = some { m with
        calls := m.calls.set s.calls.length ⟨id, .done none⟩ } := by
      unfold consumeCommand ConsumeCall.goto
      dsimp only
      rw [show m.store.privateKey m.now id = none from hpriv]
      rfl
    exact ⟨m, _, _, rfl, .head (hget.trans hnext) (.refl _ _ _), getElem?_set_here hcall _, rfl,
      rfl⟩
  | some priv =>
    let m₁ : ServeState := { m with calls := m.calls.set s.calls.length ⟨id, .hdel priv⟩ }
    let m₂ : ServeState := { m₁ with
      store := s.store.remove id
      calls := m₁.calls.set s.calls.length ⟨id, .delete priv⟩ }
    let m₃ : ServeState := { m₂ with
      store := { m₂.store with records := m₂.store.records.del id }
      calls := m₂.calls.set s.calls.length ⟨id, .done (some priv)⟩ }
    have hread : serveStep decodes m (.command s.calls.length) = some m₁ := by
      rw [hget]
      unfold consumeCommand ConsumeCall.goto
      dsimp only
      rw [show m.store.privateKey m.now id = some priv from hpriv]
      rfl
    have hcall₁ : m₁.calls[s.calls.length]? = some ⟨id, .hdel priv⟩ := getElem?_set_here hcall _
    have hcall₂ : m₂.calls[s.calls.length]? = some ⟨id, .delete priv⟩ :=
      getElem?_set_here hcall₁ _
    have hdel : serveStep decodes m₁ (.command s.calls.length) = some m₂ :=
      serveStep_command hcall₁
    have hdelete : serveStep decodes m₂ (.command s.calls.length) = some m₃ :=
      serveStep_command hcall₂
    refine ⟨m, m₃, ⟨id, .done (some priv)⟩, rfl,
      .head hread (.head hdel (.head hdelete (.refl _ _ _))), getElem?_set_here hcall₂ _, ?_, rfl⟩
    -- the last `DELETE` finds no record
    show (⟨s.store.listed.erase id, (s.store.records.del id).del id⟩ : PreKeyStore) =
      s.store.remove id
    unfold PreKeyStore.remove TtlMap.del
    rw [Function.update_idem]

end IronLink.Keys
