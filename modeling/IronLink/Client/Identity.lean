import IronLink.Client.Signal
import IronLink.Lib.Calls
import IronLink.Lib.Run

/-!
# The identity key pair of a device

`getOrCreateIdentityKeyPair` (frontend/lib/core/crypto/signal.dart:21-48) at its awaits:
two reads, and two writes by a call that has found a half missing. Pre-key upload, signed
pre-key upload and key agreement all call it.

Results:
* `oneIdentity_of_alone`: in every run in which no call reads a half that another call is
  about to write, all calls return the stored pair, and a valid pair once stored stays.
* `identity_twice`: two calls on an empty storage return different pairs.
* `identity_alone`: a call alone does what `getOrCreateIdentityKeyPair` computes.
-/

namespace IronLink.Client

open Lib

/-! ## Model -/

/-- What `IdentityKeyPair.generate()` returns; `publicOf` is the public half of a private
    one. -/
structure IdentityPair {S : Type} (lib : Libsignal S) (publicOf : String → String) extends
    Generated lib where
  halves : publicKey = publicOf privateKey

/-- The next await of a `getOrCreateIdentityKeyPair` call. -/
inductive IdentityPc
  | readPrivate
  | readPublic (privateKey : Option String)
  /-- the stored halves do not decode -/
  | deleteAll
  | writePrivate (pair : KeyPair)
  | writePublic (pair : KeyPair)
  | done (pair : KeyPair)
  deriving DecidableEq

/-- The storage and the calls in flight. -/
structure IdentityState where
  storage : Storage
  calls : List IdentityPc

def IdentityState.init (storage : Storage) : IdentityState := ⟨storage, []⟩

def identityPrivateSlot (userId : String) : String := "signal_identity_private_" ++ userId

def identityPublicSlot (userId : String) : String := "signal_identity_public_" ++ userId

section Step

variable {S : Type} (lib : Libsignal S) (publicOf : String → String) (userId : String)

/-- What a call does once it has read both halves (core/crypto/signal.dart:25-38); `fresh`
    is the pair it generates if it has to. -/
def afterReads (fresh : KeyPair) : Option String → Option String → IdentityPc
  | some privateKey, some publicKey =>
    if lib.keysValid privateKey publicKey then .done ⟨privateKey, publicKey⟩ else .deleteAll
  | _, _ => .writePrivate fresh

/-- The next await of the `i`-th call, which is at `pc`. -/
def identityCommand (s : IdentityState) (i : ℕ) (fresh : KeyPair) :
    IdentityPc → Option IdentityState
  | .readPrivate => some { s with
      calls := s.calls.set i (.readPublic (s.storage (identityPrivateSlot userId))) }
  | .readPublic privateKey => some { s with
      calls := s.calls.set i
        (afterReads lib fresh privateKey (s.storage (identityPublicSlot userId))) }
  | .deleteAll => some
      { storage :=
          (s.storage.delete (identityPrivateSlot userId)).delete (identityPublicSlot userId)
        calls := s.calls.set i (.writePrivate fresh) }
  | .writePrivate pair => some
      { storage := s.storage.write (identityPrivateSlot userId) pair.privateKey
        calls := s.calls.set i (.writePublic pair) }
  | .writePublic pair => some
      { storage := s.storage.write (identityPublicSlot userId) pair.publicKey
        calls := s.calls.set i (.done pair) }
  | .done _ => none

inductive IdentityAction
  | call
  /-- the next await of the `i`-th call, which generates `fresh` if it has to -/
  | command (i : ℕ) (fresh : IdentityPair lib publicOf)

def identityStep (s : IdentityState) : IdentityAction lib publicOf → Option IdentityState
  | .call => some { s with calls := s.calls ++ [.readPrivate] }
  | .command i fresh =>
    s.calls[i]?.bind (identityCommand lib userId s i fresh.toKeyPair)

/-! ## One identity -/

/-- The two slots hold the pair. -/
def IsStored (storage : Storage) (pair : KeyPair) : Prop :=
  storage (identityPrivateSlot userId) = some pair.privateKey ∧
    storage (identityPublicSlot userId) = some pair.publicKey

/-- The halves belong together, and decode. -/
def GoodPair (pair : KeyPair) : Prop :=
  lib.keysValid pair.privateKey pair.publicKey = true ∧ pair.publicKey = publicOf pair.privateKey

/-- Once all calls have returned, they have returned the stored pair, whose halves belong
    together; a good pair that `earlier` held is still stored. -/
structure OneIdentity (earlier : Storage) (s : IdentityState) : Prop where
  agreed : s.calls ≠ [] → (∀ pc ∈ s.calls, ∃ pair, pc = .done pair) →
    ∃ pair, IsStored userId s.storage pair ∧ pair.publicKey = publicOf pair.privateKey ∧
      ∀ pc ∈ s.calls, pc = .done pair
  kept : ∀ pair, GoodPair lib publicOf pair → IsStored userId earlier pair →
    IsStored userId s.storage pair

/-- The call has yet to write both halves. -/
def IdentityPc.willCreate (publicKey : Option String) : IdentityPc → Bool
  | .readPublic privateKey => privateKey.isNone || publicKey.isNone
  | .deleteAll => true
  | .writePrivate _ => true
  | _ => false

/-- The call has yet to write the public half. -/
def IdentityPc.writesPublic : IdentityPc → Bool
  | .writePublic _ => true
  | _ => false

def IdentityPc.readsPublic : IdentityPc → Bool
  | .readPublic _ => true
  | _ => false

/-- A call reads the private half when no other has yet to write both, and the public half
    when no other has yet to write that. -/
def Alone (s : IdentityState) : IdentityAction lib publicOf → Prop
  | .call => True
  | .command i _ =>
    (s.calls[i]? = some .readPrivate → (∃ pc ∈ s.calls, pc.writesPublic = true) ∨
        ∀ pc ∈ s.calls, pc.willCreate (s.storage (identityPublicSlot userId)) = false) ∧
      ((∃ pc ∈ s.calls[i]?, pc.readsPublic = true) → ∀ pc ∈ s.calls, pc.writesPublic = false)

instance (s : IdentityState) :
    (a : IdentityAction lib publicOf) → Decidable (Alone lib publicOf userId s a)
  | .call => isTrue trivial
  | .command .. => by unfold Alone; infer_instance

end Step

variable {S : Type} {lib : Libsignal S} {publicOf : String → String} {userId : String}
  {s s' : IdentityState} {i : ℕ} {pc : IdentityPc} {pair : KeyPair} {start : Storage}

/-! ## The phases of a run -/

theorem identitySlot_ne (userId : String) :
    identityPrivateSlot userId ≠ identityPublicSlot userId := by
  unfold identityPrivateSlot identityPublicSlot
  exact append_ne 18 (by decide) (by decide) (by decide) _ _

/-- A half is missing. -/
def Incomplete (userId : String) (storage : Storage) : Prop :=
  storage (identityPrivateSlot userId) = none ∨ storage (identityPublicSlot userId) = none

/-- The call has read the private half, and has yet to write both. -/
def Creates (lib : Libsignal S) (publicOf : String → String) (userId : String)
    (storage : Storage) (pc : IdentityPc) : Prop :=
  pc = .readPublic (storage (identityPrivateSlot userId)) ∨
    ∃ pair, GoodPair lib publicOf pair ∧ pc = .writePrivate pair

/-- The call has read no other private half, and returned no other pair. -/
def HasPair (pair : KeyPair) (pc : IdentityPc) : Prop :=
  pc = .readPrivate ∨ pc = .readPublic (some pair.privateKey) ∨ pc = .done pair

/-- The pair is stored, and every call agrees with it. -/
structure Whole (lib : Libsignal S) (publicOf : String → String) (userId : String)
    (pair : KeyPair) (s : IdentityState) : Prop where
  good : GoodPair lib publicOf pair
  stored : IsStored userId s.storage pair
  calls : ∀ pc ∈ s.calls, HasPair pair pc

/-- How far a run has come that starts with a half missing. -/
inductive Phase (lib : Libsignal S) (publicOf : String → String) (userId : String)
    (s : IdentityState) : Prop
  | idle (incomplete : Incomplete userId s.storage) (calls : ∀ pc ∈ s.calls, pc = .readPrivate)
  | creating (i : ℕ) (pc : IdentityPc) (incomplete : Incomplete userId s.storage)
      (call : s.calls[i]? = some pc) (creates : Creates lib publicOf userId s.storage pc)
      (others : Others s.calls i fun pc => pc = .readPrivate)
  | half (i : ℕ) (pair : KeyPair) (good : GoodPair lib publicOf pair)
      (call : s.calls[i]? = some (.writePublic pair))
      (stored : s.storage (identityPrivateSlot userId) = some pair.privateKey)
      (others : Others s.calls i fun pc =>
        pc = .readPrivate ∨ pc = .readPublic (some pair.privateKey))
  | whole (pair : KeyPair) (whole : Whole lib publicOf userId pair s)

theorem IdentityPair.good (fresh : IdentityPair lib publicOf) :
    GoodPair lib publicOf fresh.toKeyPair := ⟨fresh.valid, fresh.halves⟩

/-- Once a good pair is stored, every call reads it and returns it. -/
theorem Whole.step (h : Whole lib publicOf userId pair s) {a : IdentityAction lib publicOf}
    (hs : identityStep lib publicOf userId s a = some s') : Whole lib publicOf userId pair s' := by
  cases a with
  | call =>
    cases hs
    refine ⟨h.good, h.stored, fun pc hpc => ?_⟩
    obtain hold | hnew := List.mem_append.mp hpc
    · exact h.calls pc hold
    · exact .inl (List.mem_singleton.mp hnew)
  | command i fresh =>
    obtain ⟨pc, hpc, hs⟩ := Option.bind_eq_some_iff.mp hs
    obtain rfl | rfl | rfl := h.calls pc (List.mem_of_getElem? hpc)
    · cases hs
      refine ⟨h.good, h.stored, forall_set h.calls (.inr (.inl ?_))⟩
      rw [h.stored.1]
    · cases hs
      refine ⟨h.good, h.stored, forall_set h.calls (.inr (.inr ?_))⟩
      rw [h.stored.2]
      exact if_pos h.good.1
    · cases hs

/-- A missing half makes a call that reads it create a pair. -/
theorem afterReads_of_incomplete (fresh : KeyPair) {privateKey publicKey : Option String}
    (h : privateKey = none ∨ publicKey = none) :
    afterReads lib fresh privateKey publicKey = .writePrivate fresh := by
  obtain rfl | rfl := h
  · rfl
  · cases privateKey <;> rfl

/-- The creating call is one that has yet to write both halves. -/
theorem Creates.willCreate (h : Creates lib publicOf userId s.storage pc)
    (hincomplete : Incomplete userId s.storage) :
    pc.willCreate (s.storage (identityPublicSlot userId)) = true ∧ pc.writesPublic = false := by
  obtain rfl | ⟨pair, -, rfl⟩ := h
  · refine ⟨?_, rfl⟩
    obtain hnone | hnone := hincomplete
    · show (Option.isNone _ || _) = true
      rw [hnone]
      rfl
    · show (_ || Option.isNone _) = true
      rw [hnone, Option.isNone_none, Bool.or_true]
  · exact ⟨rfl, rfl⟩

/-- The creating call takes its next await. -/
theorem phase_creating (hincomplete : Incomplete userId s.storage) (hcall : s.calls[i]? = some pc)
    (hcreates : Creates lib publicOf userId s.storage pc)
    (hothers : Others s.calls i fun pc => pc = .readPrivate) (fresh : IdentityPair lib publicOf)
    (hs : identityCommand lib userId s i fresh.toKeyPair pc = some s') :
    Phase lib publicOf userId s' := by
  obtain rfl | ⟨pair, hgood, rfl⟩ := hcreates
  · cases hs
    rw [afterReads_of_incomplete fresh.toKeyPair hincomplete]
    exact .creating i _ hincomplete (getElem?_set_here hcall _)
      (.inr ⟨_, fresh.good, rfl⟩) (hothers.set_self _)
  · cases hs
    refine .half i pair hgood (getElem?_set_here hcall _) (Function.update_self ..) ?_
    exact (hothers.set_self _).mono fun pc hpc => .inl hpc

/-- The call that has written the private half writes the public one. -/
theorem phase_half (hgood : GoodPair lib publicOf pair)
    (hcall : s.calls[i]? = some (.writePublic pair))
    (hstored : s.storage (identityPrivateSlot userId) = some pair.privateKey)
    (hothers : Others s.calls i fun pc =>
      pc = .readPrivate ∨ pc = .readPublic (some pair.privateKey)) :
    Whole lib publicOf userId pair
      { storage := s.storage.write (identityPublicSlot userId) pair.publicKey
        calls := s.calls.set i (.done pair) } := by
  refine ⟨hgood, ⟨?_, Function.update_self ..⟩, fun pc hpc => ?_⟩
  · show s.storage.write (identityPublicSlot userId) pair.publicKey (identityPrivateSlot userId) = _
    rw [Storage.write_of_ne (identitySlot_ne userId)]
    exact hstored
  · obtain ⟨j, hj⟩ := List.getElem?_of_mem hpc
    by_cases hji : j = i
    · subst hji
      have hdone := (getElem?_set_here hcall (.done pair)).symm.trans hj
      exact .inr (.inr (Option.some.inj hdone).symm)
    · exact (hothers.set_self _ j pc hji hj).imp_right .inl

theorem phase_step (s : IdentityState) (a : IdentityAction lib publicOf) (s' : IdentityState)
    (h : Phase lib publicOf userId s) (hg : Alone lib publicOf userId s a)
    (hs : identityStep lib publicOf userId s a = some s') : Phase lib publicOf userId s' := by
  cases a with
  | call =>
    cases h with
    | idle hincomplete hcalls =>
      cases hs
      refine .idle hincomplete fun pc hpc => ?_
      obtain hold | hnew := List.mem_append.mp hpc
      · exact hcalls pc hold
      · exact List.mem_singleton.mp hnew
    | creating i pc hincomplete hcall hcreates hothers =>
      cases hs
      exact .creating i pc hincomplete (getElem?_append_here hcall _) hcreates
        (hothers.append rfl)
    | half i pair hgood hcall hstored hothers =>
      cases hs
      exact .half i pair hgood (getElem?_append_here hcall _) hstored
        (hothers.append (.inl rfl))
    | whole pair hwhole => exact .whole pair (hwhole.step hs)
  | command j fresh =>
    obtain ⟨pc, hpc, hcommand⟩ := Option.bind_eq_some_iff.mp hs
    cases h with
    | idle hincomplete hcalls =>
      obtain rfl := hcalls pc (List.mem_of_getElem? hpc)
      cases hcommand
      refine .creating j _ hincomplete (getElem?_set_here hpc _) (.inl rfl) ?_
      exact fun k x hk hx => hcalls x (List.mem_of_getElem?
        ((List.getElem?_set_ne (Ne.symm hk)).symm.trans hx))
    | creating i pc' hincomplete hcall hcreates hothers =>
      by_cases hji : j = i
      · subst hji
        obtain rfl := Option.some.inj (hcall.symm.trans hpc)
        exact phase_creating hincomplete hcall hcreates hothers fresh hcommand
      · -- another call would read the private half too early
        obtain rfl := hothers j pc hji hpc
        obtain ⟨hwill, hwrites⟩ := hcreates.willCreate hincomplete
        exfalso
        obtain ⟨x, hx, hxwrites⟩ | hnone := hg.1 hpc
        · obtain ⟨k, hk⟩ := List.getElem?_of_mem hx
          by_cases hki : k = i
          · subst hki
            obtain rfl := Option.some.inj (hcall.symm.trans hk)
            rw [hwrites] at hxwrites
            cases hxwrites
          · obtain rfl := hothers k x hki hk
            cases hxwrites
        · rw [hnone pc' (List.mem_of_getElem? hcall)] at hwill
          cases hwill
    | half i pair hgood hcall hstored hothers =>
      by_cases hji : j = i
      · subst hji
        obtain rfl := Option.some.inj (hcall.symm.trans hpc)
        cases hcommand
        exact .whole pair (phase_half hgood hcall hstored hothers)
      · obtain rfl | rfl := hothers j pc hji hpc
        · cases hcommand
          refine .half i pair hgood ((List.getElem?_set_ne hji).trans hcall) hstored ?_
          exact hothers.set j (.inr (congrArg IdentityPc.readPublic hstored))
        · -- another call would read the public half too early
          have hfalse := hg.2 ⟨_, hpc, rfl⟩ _ (List.mem_of_getElem? hcall)
          cases hfalse
    | whole pair hwhole => exact .whole pair (hwhole.step hs)

/-! ## Every run -/

/-- Once the pair is whole, all calls that return return it. -/
theorem Whole.agreed (h : Whole lib publicOf userId pair s)
    (hdone : ∀ pc ∈ s.calls, ∃ pair, pc = .done pair) : ∀ pc ∈ s.calls, pc = .done pair := by
  intro pc hpc
  obtain ⟨other, rfl⟩ := hdone pc hpc
  obtain hread | hread | hsame := h.calls _ hpc
  · cases hread
  · cases hread
  · exact hsame

/-- When all calls have returned, the pair is whole. -/
theorem Phase.whole_of_done (h : Phase lib publicOf userId s) (hne : s.calls ≠ [])
    (hdone : ∀ pc ∈ s.calls, ∃ pair, pc = .done pair) :
    ∃ pair, Whole lib publicOf userId pair s := by
  cases h with
  | idle _ hcalls =>
    obtain ⟨pc, hpc⟩ := List.exists_mem_of_ne_nil _ hne
    obtain ⟨pair, rfl⟩ := hdone pc hpc
    cases hcalls _ hpc
  | creating i pc _ hcall hcreates _ =>
    obtain ⟨pair, rfl⟩ := hdone pc (List.mem_of_getElem? hcall)
    obtain hread | ⟨_, -, hwrite⟩ := hcreates
    · cases hread
    · cases hwrite
  | half i pair _ hcall _ _ =>
    obtain ⟨other, hother⟩ := hdone _ (List.mem_of_getElem? hcall)
    cases hother
  | whole pair hwhole => exact ⟨pair, hwhole⟩

/-- Two slots hold one pair. -/
theorem IsStored.unique {storage : Storage} {other : KeyPair} (h : IsStored userId storage pair)
    (h' : IsStored userId storage other) : pair = other := by
  have hprivate := h.1.symm.trans h'.1
  have hpublic := h.2.symm.trans h'.2
  cases pair
  cases other
  cases hprivate
  cases hpublic
  rfl

/-- The private half determines the pair. -/
theorem GoodPair.eq_of_private {other : KeyPair} (h : GoodPair lib publicOf pair)
    (h' : GoodPair lib publicOf other) (hprivate : pair.privateKey = other.privateKey) :
    pair = other := by
  have hpublic : pair.publicKey = other.publicKey := by rw [h.2, h'.2, hprivate]
  cases pair
  cases other
  cases hprivate
  cases hpublic
  rfl

/-- No call has moved yet: a half is missing, or the stored pair is good. -/
theorem phase_init (hstart : ∀ pair, IsStored userId start pair → GoodPair lib publicOf pair) :
    Phase lib publicOf userId (IdentityState.init start) := by
  cases hprivate : start (identityPrivateSlot userId) with
  | none =>
    refine .idle (.inl hprivate) fun pc hpc => ?_
    cases hpc
  | some privateKey =>
    cases hpublic : start (identityPublicSlot userId) with
    | none =>
      refine .idle (.inr hpublic) fun pc hpc => ?_
      cases hpc
    | some publicKey =>
      have hstored : IsStored userId start ⟨privateKey, publicKey⟩ := ⟨hprivate, hpublic⟩
      refine .whole _ ⟨hstart _ hstored, hstored, fun pc hpc => ?_⟩
      cases hpc

theorem Incomplete.not_stored {storage : Storage} (h : Incomplete userId storage) :
    ¬ IsStored userId storage pair := by
  intro hstored
  obtain hnone | hnone := h
  · cases hnone.symm.trans hstored.1
  · cases hnone.symm.trans hstored.2

/-- A good pair that is stored stays. -/
theorem stored_step (hgood : GoodPair lib publicOf pair) (s : IdentityState)
    (a : IdentityAction lib publicOf) (s' : IdentityState)
    (h : Phase lib publicOf userId s ∧ IsStored userId s.storage pair)
    (hg : Alone lib publicOf userId s a) (hs : identityStep lib publicOf userId s a = some s') :
    Phase lib publicOf userId s' ∧ IsStored userId s'.storage pair := by
  obtain ⟨hphase, hstored⟩ := h
  refine ⟨phase_step s a s' hphase hg hs, ?_⟩
  cases hphase with
  | idle hincomplete _ => exact absurd hstored hincomplete.not_stored
  | creating _ _ hincomplete _ _ _ => exact absurd hstored hincomplete.not_stored
  | half i written hwritten hcall hprivate hothers =>
    cases a with
    | call =>
      cases hs
      exact hstored
    | command j fresh =>
      obtain ⟨pc, hpc, hcommand⟩ := Option.bind_eq_some_iff.mp hs
      by_cases hji : j = i
      · -- the public half that is written is that of the stored private one
        subst hji
        obtain rfl := Option.some.inj (hcall.symm.trans hpc)
        cases hcommand
        rw [hgood.eq_of_private hwritten (Option.some.inj (hstored.1.symm.trans hprivate))]
        exact (phase_half hwritten hcall hprivate hothers).stored
      · obtain rfl | rfl := hothers j pc hji hpc
        · cases hcommand
          exact hstored
        · cases hcommand
          exact hstored
  | whole whole hwhole =>
    rw [hstored.unique hwhole.stored]
    exact (hwhole.step hs).stored

/-- **One identity.** From a storage that is empty, holds one half or holds a valid pair,
    in every run whose reads wait for the writes, once all calls have returned they have
    returned the stored pair; a valid pair stored at any moment of the run stays. -/
theorem oneIdentity_of_alone (lib : Libsignal S) (publicOf : String → String) (userId : String)
    (start : Storage) (hstart : ∀ pair, IsStored userId start pair → GoodPair lib publicOf pair)
    (as bs : List (IdentityAction lib publicOf)) (m s' : IdentityState)
    (hrun : run (identityStep lib publicOf userId) (IdentityState.init start) as = some m)
    (hrun' : run (identityStep lib publicOf userId) m bs = some s')
    (hg : Guarded (identityStep lib publicOf userId) (Alone lib publicOf userId)
      (IdentityState.init start) (as ++ bs)) :
    OneIdentity lib publicOf userId m.storage s' := by
  obtain ⟨hga, hgb⟩ := guarded_append.mp hg
  have hm : Phase lib publicOf userId m := hga.invariant phase_step (phase_init hstart) hrun
  have hs' : Phase lib publicOf userId s' := (hgb m hrun).invariant phase_step hm hrun'
  refine ⟨fun hne hdone => ?_, fun pair hgood hstored => ?_⟩
  · obtain ⟨pair, hwhole⟩ := hs'.whole_of_done hne hdone
    exact ⟨pair, hwhole.stored, hwhole.good.2, hwhole.agreed hdone⟩
  · exact ((hgb m hrun).invariant (stored_step hgood) ⟨hm, hstored⟩ hrun').2

/-! ## Two calls -/

/-- The public half of a private one, for the examples. -/
def samplePublicOf (privateKey : String) : String := privateKey ++ "+"

def sampleIdentity (privateKey : String) : IdentityPair sampleLib samplePublicOf :=
  ⟨⟨⟨privateKey, samplePublicOf privateKey⟩, rfl⟩, rfl⟩

/-- The second call reads each half as soon as it is written. -/
def sampleInTurn : List (IdentityAction sampleLib samplePublicOf) :=
  [.call, .call, .command 0 (sampleIdentity "a"), .command 0 (sampleIdentity "a"),
    .command 0 (sampleIdentity "a"), .command 1 (sampleIdentity "b"),
    .command 0 (sampleIdentity "a"), .command 1 (sampleIdentity "b")]

theorem oneIdentity_inTurn :
    ∃ s', run (identityStep sampleLib samplePublicOf "7") (IdentityState.init fun _ => none)
        sampleInTurn = some s' ∧ s'.calls = [.done ⟨"a", "a+"⟩, .done ⟨"a", "a+"⟩] ∧
      OneIdentity sampleLib samplePublicOf "7" (fun _ => none) s' := by
  have hrun : (run (identityStep sampleLib samplePublicOf "7")
      (IdentityState.init fun _ => none) sampleInTurn).map IdentityState.calls =
      some [.done ⟨"a", "a+"⟩, .done ⟨"a", "a+"⟩] := by
    decide +kernel
  obtain ⟨s', hs', hcalls⟩ := Option.map_eq_some_iff.mp hrun
  exact ⟨s', hs', hcalls, oneIdentity_of_alone sampleLib samplePublicOf "7" (fun _ => none)
    (fun pair h => (by cases h.1)) [] sampleInTurn _ s' rfl hs' (by decide +kernel)⟩

/-- Both calls find nothing, and the writes of one fall between those of the other. -/
def sampleAtOnce : List (IdentityAction sampleLib samplePublicOf) :=
  [.call, .call, .command 0 (sampleIdentity "a"), .command 1 (sampleIdentity "b"),
    .command 0 (sampleIdentity "a"), .command 1 (sampleIdentity "b"),
    .command 0 (sampleIdentity "a"), .command 1 (sampleIdentity "b"),
    .command 1 (sampleIdentity "b"), .command 0 (sampleIdentity "a")]

theorem identity_twice :
    ¬ ∀ (lib : Libsignal String) publicOf userId start as bs m s',
      (∀ pair, IsStored userId start pair → GoodPair lib publicOf pair) →
      run (identityStep lib publicOf userId) (IdentityState.init start) as = some m →
      run (identityStep lib publicOf userId) m bs = some s' →
        OneIdentity lib publicOf userId m.storage s' := by
  intro h
  have hrun : (run (identityStep sampleLib samplePublicOf "7")
      (IdentityState.init fun _ => none) sampleAtOnce).map
      (fun s => (s.calls, s.storage (identityPrivateSlot "7"),
        s.storage (identityPublicSlot "7"))) =
      some ([.done ⟨"a", "a+"⟩, .done ⟨"b", "b+"⟩], some "b", some "a+") := by
    decide +kernel
  obtain ⟨s', hs', heq⟩ := Option.map_eq_some_iff.mp hrun
  obtain ⟨hcalls, hprivate, hpublic⟩ :
      s'.calls = [.done ⟨"a", "a+"⟩, .done ⟨"b", "b+"⟩] ∧
        s'.storage (identityPrivateSlot "7") = some "b" ∧
        s'.storage (identityPublicSlot "7") = some "a+" := by
    simpa only [Prod.mk.injEq] using heq
  have hone := h sampleLib samplePublicOf "7" (fun _ => none) [] sampleAtOnce _ s'
    (fun pair hpair => (by cases hpair.1)) rfl hs'
  obtain ⟨pair, hstored, hhalves, -⟩ := hone.agreed (by rw [hcalls]; exact List.cons_ne_nil _ _) (by
    rw [hcalls]
    simp)
  have hb : "b" = pair.privateKey := Option.some.inj (hprivate.symm.trans hstored.1)
  have ha : "a+" = pair.publicKey := Option.some.inj (hpublic.symm.trans hstored.2)
  rw [← hb, ← ha] at hhalves
  exact absurd hhalves (by decide)

/-! ## A call alone -/

theorem identityStep_command {fresh : IdentityPair lib publicOf} (hcall : s.calls[i]? = some pc) :
    identityStep lib publicOf userId s (.command i fresh) =
      identityCommand lib userId s i fresh.toKeyPair pc := by
  show s.calls[i]?.bind _ = _
  rw [hcall, Option.bind_some]

/-- The two writes of a call that has a pair to store. -/
theorem drives_writes (fresh : IdentityPair lib publicOf)
    (hcall : s.calls[i]? = some (.writePrivate pair)) :
    ∃ s', Drives (identityStep lib publicOf userId) (.command i fresh) s s' ∧
      s'.storage = (s.storage.write (identityPrivateSlot userId) pair.privateKey).write
        (identityPublicSlot userId) pair.publicKey ∧
      s'.calls[i]? = some (.done pair) := by
  let m : IdentityState :=
    { storage := s.storage.write (identityPrivateSlot userId) pair.privateKey
      calls := s.calls.set i (.writePublic pair) }
  have hm : m.calls[i]? = some (.writePublic pair) := getElem?_set_here hcall _
  exact ⟨_, .head (identityStep_command hcall) (.head (identityStep_command hm) (.refl _ _ _)), rfl,
    getElem?_set_here hm _⟩

/-- What `getOrCreateIdentityKeyPair` computes, by what a call does after its reads. -/
theorem getOrCreateIdentityKeyPair_cases (lib : Libsignal S) (userId : String) (fresh : KeyPair)
    (storage : Storage) :
    let next := afterReads lib fresh (storage (identityPrivateSlot userId))
      (storage (identityPublicSlot userId))
    let result := getOrCreateIdentityKeyPair lib userId fresh storage
    (∃ pair, next = .done pair ∧ result = (pair, storage)) ∨
      (next = .deleteAll ∧ result = (fresh, ((((storage.delete (identityPrivateSlot userId)).delete
        (identityPublicSlot userId)).write (identityPrivateSlot userId) fresh.privateKey).write
        (identityPublicSlot userId) fresh.publicKey))) ∨
      (next = .writePrivate fresh ∧ result = (fresh, (storage.write (identityPrivateSlot userId)
        fresh.privateKey).write (identityPublicSlot userId) fresh.publicKey)) := by
  intro next result
  have hresult : result = getOrCreateIdentityKeyPair lib userId fresh storage := rfl
  dsimp only [getOrCreateIdentityKeyPair] at hresult
  cases hprivate : storage (identityPrivateSlot userId) with
  | none =>
    rw [show storage ("signal_identity_private_" ++ userId) = none from hprivate] at hresult
    refine .inr (.inr ⟨?_, hresult⟩)
    show afterReads _ _ (storage (identityPrivateSlot userId)) _ = _
    rw [hprivate]
    rfl
  | some privateKey =>
    rw [show storage ("signal_identity_private_" ++ userId) = some privateKey from hprivate]
      at hresult
    have hnext : next = afterReads lib fresh (some privateKey)
        (storage (identityPublicSlot userId)) :=
      congrArg (afterReads lib fresh · (storage (identityPublicSlot userId))) hprivate
    cases hpublic : storage (identityPublicSlot userId) with
    | none =>
      rw [show storage ("signal_identity_public_" ++ userId) = none from hpublic] at hresult
      rw [hpublic] at hnext
      exact .inr (.inr ⟨hnext, hresult⟩)
    | some publicKey =>
      rw [show storage ("signal_identity_public_" ++ userId) = some publicKey from hpublic]
        at hresult
      rw [hpublic] at hnext
      unfold afterReads at hnext
      by_cases hvalid : lib.keysValid privateKey publicKey = true
      · exact .inl ⟨_, hnext.trans (if_pos hvalid), hresult.trans (if_pos hvalid)⟩
      · exact .inr (.inl ⟨hnext.trans (if_neg hvalid), hresult.trans (if_neg hvalid)⟩)

/-- A call whose awaits come without any other step in between returns what
    `getOrCreateIdentityKeyPair` computes, and leaves the storage as it does. -/
theorem identity_alone (s : IdentityState) (fresh : IdentityPair lib publicOf) :
    ∃ m s', identityStep lib publicOf userId s .call = some m ∧
      Drives (identityStep lib publicOf userId) (.command s.calls.length fresh) m s' ∧
      s'.storage = (getOrCreateIdentityKeyPair lib userId fresh.toKeyPair s.storage).2 ∧
      s'.calls[s.calls.length]? =
        some (.done (getOrCreateIdentityKeyPair lib userId fresh.toKeyPair s.storage).1) := by
  let m : IdentityState := { s with calls := s.calls ++ [.readPrivate] }
  let m₁ : IdentityState := { m with
    calls := m.calls.set s.calls.length (.readPublic (s.storage (identityPrivateSlot userId))) }
  let next := afterReads lib fresh.toKeyPair (s.storage (identityPrivateSlot userId))
    (s.storage (identityPublicSlot userId))
  let m₂ : IdentityState := { m₁ with calls := m₁.calls.set s.calls.length next }
  have hm : m.calls[s.calls.length]? = some .readPrivate := List.getElem?_concat_length
  have hm₁ : m₁.calls[s.calls.length]? = some (.readPublic _) := getElem?_set_here hm _
  have hm₂ : m₂.calls[s.calls.length]? = some next := getElem?_set_here hm₁ _
  have hreads : Drives (identityStep lib publicOf userId) (.command s.calls.length fresh) m m₂ :=
    .head (identityStep_command hm) (.head (identityStep_command hm₁) (.refl _ _ _))
  obtain ⟨pair, hnext, hresult⟩ | ⟨hnext, hresult⟩ | ⟨hnext, hresult⟩ :=
    getOrCreateIdentityKeyPair_cases lib userId fresh.toKeyPair s.storage
  · rw [hresult]
    exact ⟨m, m₂, rfl, hreads, rfl, hm₂.trans (congrArg some hnext)⟩
  · let m₃ : IdentityState :=
      { storage :=
          (s.storage.delete (identityPrivateSlot userId)).delete (identityPublicSlot userId)
        calls := m₂.calls.set s.calls.length (.writePrivate fresh.toKeyPair) }
    have hdelete : identityStep lib publicOf userId m₂ (.command s.calls.length fresh) = some m₃ :=
      identityStep_command (hm₂.trans (congrArg some hnext))
    have hm₃ : m₃.calls[s.calls.length]? = some (.writePrivate fresh.toKeyPair) :=
      getElem?_set_here hm₂ _
    obtain ⟨s', hwrites, hstorage, hdone⟩ := drives_writes fresh hm₃
    rw [hresult]
    exact ⟨m, s', rfl, hreads.trans (.head hdelete hwrites), hstorage, hdone⟩
  · obtain ⟨s', hwrites, hstorage, hdone⟩ := drives_writes fresh (hm₂.trans (congrArg some hnext))
    rw [hresult]
    exact ⟨m, s', rfl, hreads.trans hwrites, hstorage, hdone⟩

end IronLink.Client
