import IronLink.Client.Signal
import IronLink.Lib.Calls
import IronLink.Lib.ReadModifyWrite
import IronLink.Lib.Run

/-!
# Concurrent use of a session

`encryptMessage` and `decryptMessage` (frontend/lib/core/crypto/signal.dart:438-487)
read the session, run the cipher on what they have read and write the result
back, with an `await` at the read and at the write. The handlers of `ChatBloc`
run concurrently, so the calls for one peer overlap at these points.

Results:
* `call_uninterrupted`: a call that nothing interrupts is `encryptMessage` or
  `decryptMessage`.
* `usedOnce_iff_exclusive`: no state is used twice and no advance is lost, as long
  as no call reads the session between the read and the write of another one; and
  when all calls have returned, in no other run.
* `overlap_reusesKey`: two overlapping encryptions use the same key.
-/

namespace IronLink.Client

open Lib

/-! ## Model -/

/-- A call with its arguments beside the peer. -/
inductive Op
  | encrypt (plaintext : String)
  | decrypt (ciphertext : Option String)

/-- Where a call is. -/
inductive CallPc (S : Type)
  /-- before the read of the session -/
  | load
  /-- the read has answered -/
  | cipher (sessionState : Option S)
  /-- before the write of the advanced state; `text` is the call's result -/
  | store (text : String) (next : S)
  | returned (result : Except String String)

structure CipherCall (S : Type) where
  op : Op
  pc : CallPc S

/-- The device's storage, the calls for one peer, and the states from which
    messages have been encrypted, the first one first. -/
structure SessionUse (S : Type) where
  storage : Storage
  calls : List (CipherCall S)
  encryptedFrom : List S

inductive UseAction
  | call (op : Op)
  /-- the `k`-th call goes on to its next `await` -/
  | next (k : ℕ)

section Use

variable {S : Type} (lib : Libsignal S) (userId remoteUserId : String)

/-- The cipher on a session state. -/
def Op.cipher : Op → S → Except String (String × S)
  | .encrypt plaintext, sessionState => lib.encrypt sessionState plaintext
  | .decrypt none, _ => .error "type 'Null' is not a subtype of type 'String' in type cast"
  | .decrypt (some ciphertext), sessionState => lib.decrypt sessionState ciphertext

def Op.isEncrypt : Op → Bool
  | .encrypt _ => true
  | .decrypt _ => false

/-- The next step of the call `op`, the `k`-th. -/
def callNext (use : SessionUse S) (k : ℕ) (op : Op) : CallPc S → Option (SessionUse S)
  | .load =>
    some { use with
      calls := use.calls.set k ⟨op, .cipher (loadSession lib userId use.storage remoteUserId)⟩ }
  | .cipher none =>
    some { use with calls := use.calls.set k ⟨op, .returned (.error (noSession remoteUserId))⟩ }
  | .cipher (some sessionState) =>
    match op.cipher lib sessionState with
    | .error err => some { use with calls := use.calls.set k ⟨op, .returned (.error err)⟩ }
    | .ok (text, next) =>
      some { use with
        calls := use.calls.set k ⟨op, .store text next⟩
        encryptedFrom := use.encryptedFrom ++ if op.isEncrypt then [sessionState] else [] }
  | .store text next =>
    some { use with
      storage := storeSession lib userId use.storage remoteUserId next
      calls := use.calls.set k ⟨op, .returned (.ok text)⟩ }
  | .returned _ => none

def useStep (use : SessionUse S) : UseAction → Option (SessionUse S)
  | .call op => some { use with calls := use.calls ++ [⟨op, .load⟩] }
  | .next k => use.calls[k]?.bind fun call => callNext lib userId remoteUserId use k call.op call.pc

/-- No call has been made. -/
def SessionUse.init (storage : Storage) : SessionUse S := ⟨storage, [], []⟩

end Use

/-- A call without interruption. -/
def Op.perform {S : Type} (lib : Libsignal S) (userId : String) (storage : Storage)
    (remoteUserId : String) : Op → Except String String × Storage
  | .encrypt plaintext => encryptMessage lib userId storage plaintext remoteUserId
  | .decrypt ciphertext => decryptMessage lib userId storage ciphertext remoteUserId

/-! ## The guarantee -/

/-- libsignal counts the steps of the ratchet: `pos` is the number of a state,
    which is also the number of the message key it yields. -/
structure Ratchets {S : Type} (lib : Libsignal S) (pos : S → ℕ) : Prop where
  encrypt : ∀ sessionState plaintext ciphertext next,
    lib.encrypt sessionState plaintext = .ok (ciphertext, next) → pos next = pos sessionState + 1
  decrypt : ∀ sessionState ciphertext plaintext next,
    lib.decrypt sessionState ciphertext = .ok (plaintext, next) → pos next = pos sessionState + 1
  restore : ∀ sessionState, lib.sessionFromJson (lib.sessionToJson sessionState) = some sessionState

section Guarantee

variable {S : Type} (lib : Libsignal S) (userId remoteUserId : String) (pos : S → ℕ)

/-- The call has returned a result. -/
def CipherCall.succeeded (call : CipherCall S) : Bool :=
  match call.pc with
  | .returned (.ok _) => true
  | _ => false

def CipherCall.isReturned (call : CipherCall S) : Bool :=
  match call.pc with
  | .returned _ => true
  | _ => false

def CipherCall.atLoad (call : CipherCall S) : Bool :=
  match call.pc with
  | .load => true
  | _ => false

/-- The state the call is going to write, once it has read the session. -/
def CipherCall.pending (call : CipherCall S) : Option S :=
  match call.pc with
  | .cipher (some sessionState) => (call.op.cipher lib sessionState).toOption.map Prod.snd
  | .store _ next => some next
  | _ => none

/-- No message key is used twice, and the session stored is as many steps ahead
    of the first one as calls have succeeded. -/
def UsedOnce (storage : Storage) (use : SessionUse S) : Prop :=
  (use.encryptedFrom.map pos).Nodup ∧
    ∀ first ∈ loadSession lib userId storage remoteUserId,
      ∃ stored ∈ loadSession lib userId use.storage remoteUserId,
        pos stored = pos first + use.calls.countP CipherCall.succeeded

/-- The call that is about to read the session is going to advance it. -/
def SessionUse.advances (use : SessionUse S) (call : CipherCall S) : Bool :=
  call.atLoad &&
    (CipherCall.pending lib
      ⟨call.op, .cipher (loadSession lib userId use.storage remoteUserId)⟩).isSome

/-- A call that is to advance the session does not read it between the read and
    the write of another one. -/
def Exclusive (use : SessionUse S) : UseAction → Prop
  | .next k => ∀ call ∈ use.calls[k]?, use.advances lib userId remoteUserId call = true →
      ∀ other ∈ use.calls, other.pending lib = none
  | .call _ => True

instance (call : CipherCall S) : Decidable (call.pending lib = none) :=
  decidable_of_iff _ Option.isNone_iff_eq_none

instance (use : SessionUse S) :
    ∀ action, Decidable (Exclusive lib userId remoteUserId use action)
  | .next _ => by unfold Exclusive; infer_instance
  | .call _ => isTrue trivial

end Guarantee

/-! ## What a step does -/

variable {S : Type} {lib : Libsignal S} {userId remoteUserId : String} {pos : S → ℕ}
  {use use' : SessionUse S}

/-- What the session and the calls are after a step of the `k`-th call. -/
inductive CallStep (lib : Libsignal S) (userId remoteUserId : String) (use : SessionUse S) (k : ℕ) :
    CipherCall S → SessionUse S → Prop
  | load (op : Op) :
      CallStep lib userId remoteUserId use k ⟨op, .load⟩ { use with
        calls := use.calls.set k
          ⟨op, .cipher (loadSession lib userId use.storage remoteUserId)⟩ }
  | fail (op : Op) (sessionState : Option S) (err : String)
      (h : CipherCall.pending lib ⟨op, .cipher sessionState⟩ = none) :
      CallStep lib userId remoteUserId use k ⟨op, .cipher sessionState⟩ { use with
        calls := use.calls.set k ⟨op, .returned (.error err)⟩ }
  | cipher (op : Op) (sessionState : S) (text : String) (next : S)
      (h : op.cipher lib sessionState = .ok (text, next)) :
      CallStep lib userId remoteUserId use k ⟨op, .cipher (some sessionState)⟩ { use with
        calls := use.calls.set k ⟨op, .store text next⟩
        encryptedFrom := use.encryptedFrom ++ if op.isEncrypt then [sessionState] else [] }
  | store (op : Op) (text : String) (next : S) :
      CallStep lib userId remoteUserId use k ⟨op, .store text next⟩ { use with
        storage := storeSession lib userId use.storage remoteUserId next
        calls := use.calls.set k ⟨op, .returned (.ok text)⟩ }

theorem useStep_next {k : ℕ} (h : useStep lib userId remoteUserId use (.next k) = some use') :
    ∃ call, use.calls[k]? = some call ∧ CallStep lib userId remoteUserId use k call use' := by
  obtain ⟨⟨op, pc⟩, hcall, hnext⟩ := Option.bind_eq_some_iff.mp h
  refine ⟨⟨op, pc⟩, hcall, ?_⟩
  cases pc with
  | load =>
    obtain rfl := Option.some.inj hnext
    exact .load op
  | cipher sessionState =>
    cases sessionState with
    | none =>
      obtain rfl := Option.some.inj hnext
      exact .fail op none _ rfl
    | some sessionState =>
      simp only [callNext] at hnext
      split at hnext
      · next err herr =>
        obtain rfl := Option.some.inj hnext
        refine .fail op (some sessionState) err ?_
        unfold CipherCall.pending
        simp only [herr]
        rfl
      · next text next hok =>
        obtain rfl := Option.some.inj hnext
        exact .cipher op sessionState text next hok
  | store text next =>
    obtain rfl := Option.some.inj hnext
    exact .store op text next
  | returned result => cases hnext

theorem pending_cipher {op : Op} {sessionState : S} {text : String} {next : S}
    (h : op.cipher lib sessionState = .ok (text, next)) :
    CipherCall.pending lib ⟨op, .cipher (some sessionState)⟩ = some next := by
  unfold CipherCall.pending
  simp only [h]
  rfl

/-- The cipher takes one step. -/
theorem pos_cipher (hratchets : Ratchets lib pos) {op : Op} {sessionState next : S} {text : String}
    (h : op.cipher lib sessionState = .ok (text, next)) : pos next = pos sessionState + 1 := by
  cases op with
  | encrypt plaintext => exact hratchets.encrypt _ _ _ _ h
  | decrypt ciphertext =>
    cases ciphertext with
    | none => cases h
    | some ciphertext => exact hratchets.decrypt _ _ _ _ h

/-- What has been stored is what is loaded. -/
theorem loadSession_storeSession (hratchets : Ratchets lib pos) (storage : Storage)
    (sessionState : S) :
    loadSession lib userId (storeSession lib userId storage remoteUserId sessionState)
      remoteUserId = some sessionState := by
  unfold loadSession storeSession Storage.write
  rw [Function.update_self, Option.bind_some, hratchets.restore]

/-! ## The session as a shared counter -/

/-- The positions about to be written. -/
def SessionUse.positions (lib : Libsignal S) (pos : S → ℕ) (use : SessionUse S) : List ℕ :=
  use.calls.filterMap fun call => (call.pending lib).map pos

/-- The session as a counter that the calls advance; there is none without a
    session. -/
def SessionUse.shared (lib : Libsignal S) (userId remoteUserId : String) (pos : S → ℕ)
    (use : SessionUse S) : Option Shared :=
  (loadSession lib userId use.storage remoteUserId).map fun stored =>
    ⟨pos stored, use.positions lib pos, use.calls.countP CipherCall.succeeded⟩

/-- A call that has read the session is one step ahead of what it has read. -/
theorem pending_load (hratchets : Ratchets lib pos) (op : Op) (stored : S) :
    (CipherCall.pending lib ⟨op, .cipher (some stored)⟩).map pos = none ∨
      (CipherCall.pending lib ⟨op, .cipher (some stored)⟩).map pos = some (pos stored + 1) := by
  cases hcipher : op.cipher lib stored with
  | error err =>
    left
    unfold CipherCall.pending
    simp only [hcipher]
    rfl
  | ok r =>
    right
    rw [pending_cipher hcipher, Option.map_some, pos_cipher hratchets hcipher]

theorem positions_set_same {k : ℕ} {call call' : CipherCall S} (hcall : use.calls[k]? = some call)
    (h : call'.pending lib = call.pending lib) :
    (((use.calls.set k call').filterMap fun call => (call.pending lib).map pos : List ℕ) :
      Multiset ℕ) = use.positions lib pos := by
  have hperm := filterMap_set_perm (fun call => (call.pending lib).map pos) hcall call'
  rw [h] at hperm
  exact Multiset.coe_eq_coe.mpr ((List.perm_append_left_iff _).mp hperm)

theorem shared_eq_some {stored : S} {positions : Multiset ℕ} {n : ℕ}
    (hstored : loadSession lib userId use.storage remoteUserId = some stored)
    (hpositions : (use.positions lib pos : Multiset ℕ) = positions)
    (hsucceeded : use.calls.countP CipherCall.succeeded = n) :
    use.shared lib userId remoteUserId pos = some ⟨pos stored, positions, n⟩ := by
  unfold SessionUse.shared
  rw [hstored, hpositions, hsucceeded]
  rfl

/-- A step that changes neither the session, nor what is to be written, nor the
    results. -/
theorem shared_congr {s : Shared} (hshared : use.shared lib userId remoteUserId pos = some s)
    (hstorage : use'.storage = use.storage)
    (hpositions : (use'.positions lib pos : Multiset ℕ) = use.positions lib pos)
    (hsucceeded : use'.calls.countP CipherCall.succeeded = use.calls.countP CipherCall.succeeded) :
    use'.shared lib userId remoteUserId pos = some s := by
  unfold SessionUse.shared at hshared ⊢
  rw [hstorage, hpositions, hsucceeded]
  exact hshared

theorem exclusive_of_not_advances {k : ℕ} {call : CipherCall S} (hcall : use.calls[k]? = some call)
    (h : use.advances lib userId remoteUserId call = false) :
    Exclusive lib userId remoteUserId use (.next k) := by
  intro call' hcall' hadvances
  obtain rfl := Option.some.inj (hcall.symm.trans hcall')
  rw [h] at hadvances
  cases hadvances

theorem exclusive_iff_of_advances {k : ℕ} {call : CipherCall S} (hcall : use.calls[k]? = some call)
    (h : use.advances lib userId remoteUserId call = true) :
    Exclusive lib userId remoteUserId use (.next k) ↔
      (use.positions lib pos : Multiset ℕ).card = 0 := by
  rw [Multiset.coe_card, List.length_eq_zero_iff]
  unfold SessionUse.positions
  rw [List.filterMap_eq_nil_iff]
  constructor
  · intro hexclusive other hother
    rw [hexclusive call hcall h other hother, Option.map_none]
  · intro hnone call' _ _ other hother
    exact Option.map_eq_none_iff.mp (hnone other hother)

/-- A call reads the session. -/
theorem shared_load (hratchets : Ratchets lib pos) {k : ℕ} {op : Op} {stored : S}
    (hcall : use.calls[k]? = some ⟨op, .load⟩)
    (hstored : loadSession lib userId use.storage remoteUserId = some stored) :
    use.advances lib userId remoteUserId ⟨op, .load⟩ = false ∧
        ((use.calls.set k ⟨op, .cipher (some stored)⟩).filterMap fun call =>
          (call.pending lib).map pos).Perm (use.positions lib pos) ∨
      use.advances lib userId remoteUserId ⟨op, .load⟩ = true ∧
        ((use.calls.set k ⟨op, .cipher (some stored)⟩).filterMap fun call =>
          (call.pending lib).map pos).Perm ((pos stored + 1) :: use.positions lib pos) := by
  have hperm := filterMap_set_perm (fun call => (call.pending lib).map pos) hcall
    ⟨op, .cipher (some stored)⟩
  have hadvances : use.advances lib userId remoteUserId ⟨op, .load⟩ =
      (CipherCall.pending lib ⟨op, .cipher (some stored)⟩).isSome := by
    unfold SessionUse.advances
    rw [hstored]
    rfl
  rw [hadvances, ← Option.isSome_map (f := pos)]
  obtain hnone | hsome := pending_load hratchets op stored
  · left
    simp only [hnone] at hperm ⊢
    exact ⟨rfl, hperm⟩
  · right
    simp only [hsome] at hperm ⊢
    exact ⟨rfl, hperm⟩

/-- **Simulation.** A step of a call is a step of a client of the counter. -/
theorem useStep_shared (hratchets : Ratchets lib pos) {action : UseAction} {s : Shared}
    (hshared : use.shared lib userId remoteUserId pos = some s)
    (hs : useStep lib userId remoteUserId use action = some use') :
    ∃ s', use'.shared lib userId remoteUserId pos = some s' ∧ SharedStep s s' ∧
      (s'.pending.card ≤ s.pending.card ∧ Exclusive lib userId remoteUserId use action ∨
        s'.pending.card = s.pending.card + 1 ∧
          (Exclusive lib userId remoteUserId use action ↔ s.pending.card = 0)) := by
  obtain ⟨stored, hstored, hs'⟩ := Option.map_eq_some_iff.mp hshared
  cases action with
  | call op =>
    obtain rfl := Option.some.inj hs
    refine ⟨s, shared_congr hshared rfl ?_ ?_, .idle s, .inl ⟨le_rfl, trivial⟩⟩
    · unfold SessionUse.positions
      rw [List.filterMap_append]
      exact congrArg _ (List.append_nil _)
    · rw [List.countP_append]
      rfl
  | next k =>
    obtain ⟨call, hcall, hstep⟩ := useStep_next hs
    cases hstep with
    | load op =>
      rw [hstored]
      obtain ⟨hnot, hperm⟩ | ⟨hadvances, hperm⟩ := shared_load hratchets hcall hstored
      · refine ⟨s, shared_congr hshared rfl (Multiset.coe_eq_coe.mpr hperm) ?_, .idle s,
          .inl ⟨le_rfl, exclusive_of_not_advances hcall hnot⟩⟩
        exact countP_set_same hcall rfl
      · subst hs'
        refine ⟨⟨pos stored, (pos stored + 1) ::ₘ use.positions lib pos,
          use.calls.countP CipherCall.succeeded⟩, ?_, .read _, .inr ⟨?_, ?_⟩⟩
        · refine shared_eq_some hstored (Multiset.coe_eq_coe.mpr hperm) ?_
          exact countP_set_same hcall rfl
        · exact Multiset.card_cons _ (use.positions lib pos : Multiset ℕ)
        · exact exclusive_iff_of_advances hcall hadvances
    | fail op sessionState err hnone =>
      refine ⟨s, shared_congr hshared rfl (positions_set_same hcall hnone.symm) ?_,
        .idle s, .inl ⟨le_rfl, exclusive_of_not_advances hcall rfl⟩⟩
      exact countP_set_same hcall rfl
    | cipher op sessionState text next hok =>
      refine ⟨s, shared_congr hshared rfl (positions_set_same hcall ?_) ?_,
        .idle s, .inl ⟨le_rfl, exclusive_of_not_advances hcall rfl⟩⟩
      · exact (pending_cipher hok).symm
      · exact countP_set_same hcall rfl
    | store op text next =>
      subst hs'
      have hperm := filterMap_set_perm (fun call => (call.pending lib).map pos) hcall
        ⟨op, .returned (.ok text)⟩
      have hpositions : (use.positions lib pos : Multiset ℕ) = pos next ::ₘ
          ((use.calls.set k ⟨op, .returned (.ok text)⟩).filterMap fun call =>
            (call.pending lib).map pos : List ℕ) :=
        (Multiset.coe_eq_coe.mpr hperm).symm
      refine ⟨_, shared_eq_some (loadSession_storeSession hratchets use.storage next) rfl
        (countP_set_enter hcall rfl rfl), .write _ _ _ hpositions,
        .inl ⟨?_, exclusive_of_not_advances hcall rfl⟩⟩
      show Multiset.card _ ≤ Multiset.card (use.positions lib pos : Multiset ℕ)
      rw [hpositions, Multiset.card_cons]
      exact Nat.le_succ _

/-! ## The states used -/

def CipherCall.atStore (call : CipherCall S) : Bool :=
  match call.pc with
  | .store _ _ => true
  | _ => false

theorem isSome_pending_of_atStore {call : CipherCall S} (h : call.atStore = true) :
    (call.pending lib).isSome = true := by
  unfold CipherCall.atStore at h
  split at h
  · next hpc =>
    unfold CipherCall.pending
    rw [hpc]
    rfl
  · cases h

/-- Of the states used, only that of a call at its write can be the one stored. -/
structure UsedBefore (pos : S → ℕ) (due : ℕ) (use : SessionUse S) : Prop where
  nodup : (use.encryptedFrom.map pos).Nodup
  used : ∀ sessionState ∈ use.encryptedFrom, pos sessionState < due ∨
    pos sessionState = due ∧ ∃ call ∈ use.calls, call.atStore = true

/-- The calls so far have taken turns: the counter is exact. -/
def InTurn (lib : Libsignal S) (userId remoteUserId : String) (pos : S → ℕ) (base : ℕ)
    (use : SessionUse S) : Prop :=
  ∃ s, use.shared lib userId remoteUserId pos = some s ∧ s.Exact base ∧
    UsedBefore pos (s.due base) use

theorem shared_pending {s : Shared} (h : use.shared lib userId remoteUserId pos = some s) :
    s.pending = use.positions lib pos ∧ s.writes = use.calls.countP CipherCall.succeeded ∧
      ∃ stored, loadSession lib userId use.storage remoteUserId = some stored ∧
        s.value = pos stored := by
  obtain ⟨stored, hstored, rfl⟩ := Option.map_eq_some_iff.mp h
  exact ⟨rfl, rfl, stored, hstored, rfl⟩

/-- One pending write at most: no other call is at its write. -/
theorem not_atStore_of_alone {s : Shared} (h : use.shared lib userId remoteUserId pos = some s)
    (halone : s.pending.card ≤ 1) {k : ℕ} {call : CipherCall S} (hcall : use.calls[k]? = some call)
    (hpending : (call.pending lib).isSome = true) (hnot : call.atStore = false) :
    ∀ other ∈ use.calls, other.atStore = false := by
  intro other hother
  obtain ⟨j, hj⟩ := List.getElem?_of_mem hother
  by_contra hstore
  rw [Bool.not_eq_false] at hstore
  have hcount : use.calls.countP (fun call => ((call.pending lib).map pos).isSome) ≤ 1 := by
    rw [← List.length_filterMap_eq_countP]
    rw [(shared_pending h).1] at halone
    exact halone
  have hsome : ∀ {c : CipherCall S}, (c.pending lib).isSome = true →
      ((c.pending lib).map pos).isSome = true := fun hc => (Option.isSome_map ..).trans hc
  obtain rfl := eq_of_countP_le_one hcount hcall hj (hsome hpending)
    (hsome (isSome_pending_of_atStore hstore))
  obtain rfl := Option.some.inj (hcall.symm.trans hj)
  rw [hnot] at hstore
  cases hstore

/-- A step that moves no call to or from its write. -/
theorem UsedBefore.congr {due : ℕ} (h : UsedBefore pos due use)
    (hlog : use'.encryptedFrom = use.encryptedFrom)
    (hcalls : ∀ call ∈ use.calls, call.atStore = true → call ∈ use'.calls) :
    UsedBefore pos due use' := by
  refine ⟨hlog ▸ h.nodup, fun sessionState hmem => ?_⟩
  obtain hlt | ⟨heq, call, hcall, hstore⟩ := h.used sessionState (hlog ▸ hmem)
  · exact .inl hlt
  · exact .inr ⟨heq, call, hcalls call hcall hstore, hstore⟩

/-- A call uses the state stored. -/
theorem UsedBefore.encrypted {due : ℕ} (h : UsedBefore pos due use) {op : Op} {sessionState : S}
    {calls : List (CipherCall S)} (hbefore : ∀ st ∈ use.encryptedFrom, pos st < due)
    (hnow : pos sessionState = due) (hstore : ∃ call ∈ calls, call.atStore = true) :
    UsedBefore pos due ⟨use.storage, calls,
      use.encryptedFrom ++ if op.isEncrypt then [sessionState] else []⟩ := by
  cases op with
  | decrypt ciphertext =>
    have hlog : (use.encryptedFrom ++ if (Op.decrypt ciphertext).isEncrypt then [sessionState]
        else []) = use.encryptedFrom := List.append_nil _
    rw [hlog]
    exact ⟨h.nodup, fun st hst => .inl (hbefore st hst)⟩
  | encrypt plaintext =>
    refine ⟨?_, fun st hst => ?_⟩
    · show ((use.encryptedFrom ++ [sessionState]).map pos).Nodup
      rw [List.map_append, List.map_singleton]
      refine h.nodup.append (List.nodup_singleton _) ?_
      rw [List.disjoint_singleton]
      intro hmem
      obtain ⟨st, hst, heq⟩ := List.mem_map.mp hmem
      exact absurd (heq.trans hnow) (hbefore st hst).ne
    · obtain hst | hst := List.mem_append.mp hst
      · exact .inl (hbefore st hst)
      · rw [List.mem_singleton.mp hst]
        exact .inr ⟨hnow, hstore⟩

theorem mem_set_of_atStore {k : ℕ} {call : CipherCall S} (hcall : use.calls[k]? = some call)
    (hnot : call.atStore = false) (call' : CipherCall S) :
    ∀ other ∈ use.calls, other.atStore = true → other ∈ use.calls.set k call' := by
  intro other hother hstore
  refine mem_set_of_ne hother hcall ?_ call'
  rintro rfl
  rw [hnot] at hstore
  cases hstore

theorem due_of_shared {base n : ℕ} {s : Shared}
    (h : use.shared lib userId remoteUserId pos = some s)
    (hn : use.calls.countP CipherCall.succeeded = n) : s.due base = base + n := by
  unfold Shared.due
  rw [(shared_pending h).2.1, hn]

theorem UsedBefore.step (hratchets : Ratchets lib pos) {base : ℕ} {s s' : Shared}
    {action : UseAction} (h : UsedBefore pos (s.due base) use) (hexact : s.Exact base)
    (hshared : use.shared lib userId remoteUserId pos = some s)
    (hshared' : use'.shared lib userId remoteUserId pos = some s')
    (hs : useStep lib userId remoteUserId use action = some use') :
    UsedBefore pos (s'.due base) use' := by
  have hdue : s.due base = base + use.calls.countP CipherCall.succeeded :=
    due_of_shared hshared rfl
  cases action with
  | call op =>
    obtain rfl := Option.some.inj hs
    rw [due_of_shared hshared' List.countP_append, ← Nat.add_assoc, ← hdue]
    exact h.congr rfl fun call hcall _ => List.mem_append_left _ hcall
  | next k =>
    obtain ⟨call, hcall, hstep⟩ := useStep_next hs
    cases hstep with
    | load op =>
      rw [due_of_shared hshared' (countP_set_same hcall rfl), ← hdue]
      exact h.congr rfl (mem_set_of_atStore hcall rfl _)
    | fail op sessionState err hnone =>
      rw [due_of_shared hshared' (countP_set_same hcall rfl), ← hdue]
      exact h.congr rfl (mem_set_of_atStore hcall rfl _)
    | cipher op sessionState text next hok =>
      rw [due_of_shared hshared' (countP_set_same hcall rfl), ← hdue]
      have hpending := pending_cipher hok
      have hnone := not_atStore_of_alone hshared hexact.alone hcall (by rw [hpending]; rfl) rfl
      have hbefore : ∀ st ∈ use.encryptedFrom, pos st < s.due base := by
        intro st hst
        obtain hlt | ⟨-, other, hother, hstore⟩ := h.used st hst
        · exact hlt
        · rw [hnone other hother] at hstore
          cases hstore
      have hnow : pos sessionState = s.due base := by
        have hmem : pos next ∈ s.pending := by
          rw [(shared_pending hshared).1]
          refine List.mem_filterMap.mpr ⟨_, List.mem_of_getElem? hcall, ?_⟩
          rw [hpending, Option.map_some]
        have hnext := hexact.pending _ hmem
        rw [pos_cipher hratchets hok] at hnext
        exact Nat.succ_injective hnext
      refine h.encrypted hbefore hnow ?_
      exact ⟨_,
        List.mem_of_getElem? (List.getElem?_set_self (List.getElem?_eq_some_iff.mp hcall).1), rfl⟩
    | store op text next =>
      rw [due_of_shared hshared' (countP_set_enter hcall rfl rfl), ← Nat.add_assoc, ← hdue]
      refine ⟨h.nodup, fun sessionState hmem => .inl ?_⟩
      obtain hlt | ⟨heq, -⟩ := h.used sessionState hmem
      · exact hlt.trans (Nat.lt_succ_self _)
      · exact heq ▸ Nat.lt_succ_self _

/-- Calls that go on taking turns. -/
theorem InTurn.step (hratchets : Ratchets lib pos) {base : ℕ} {action : UseAction}
    (h : InTurn lib userId remoteUserId pos base use)
    (hg : Exclusive lib userId remoteUserId use action)
    (hs : useStep lib userId remoteUserId use action = some use') :
    InTurn lib userId remoteUserId pos base use' := by
  obtain ⟨s, hshared, hexact, hused⟩ := h
  obtain ⟨s', hshared', hstep, hcard⟩ := useStep_shared hratchets hshared hs
  refine ⟨s', hshared', hexact.step hstep ?_, hused.step hratchets hexact hshared hshared' hs⟩
  obtain ⟨hle, -⟩ | ⟨hsucc, hiff⟩ := hcard
  · exact hle.trans hexact.alone
  · rw [hsucc, hiff.mp hg]

/-- An advance is lost. -/
def Lost (lib : Libsignal S) (userId remoteUserId : String) (pos : S → ℕ) (base : ℕ)
    (use : SessionUse S) : Prop :=
  ∃ s, use.shared lib userId remoteUserId pos = some s ∧ s.Bounded base ∧ s.Behind base

theorem InTurn.lost (hratchets : Ratchets lib pos) {base : ℕ} {action : UseAction}
    (h : InTurn lib userId remoteUserId pos base use)
    (hg : ¬ Exclusive lib userId remoteUserId use action)
    (hs : useStep lib userId remoteUserId use action = some use') :
    Lost lib userId remoteUserId pos base use' := by
  obtain ⟨s, hshared, hexact, -⟩ := h
  obtain ⟨s', hshared', hstep, hcard⟩ := useStep_shared hratchets hshared hs
  have hbounded : s.Bounded base := ⟨hexact.value.le, fun v hv => (hexact.pending v hv).le⟩
  refine ⟨s', hshared', hbounded.step hstep, .inr (.inl ?_)⟩
  obtain ⟨-, hexclusive⟩ | ⟨hsucc, hiff⟩ := hcard
  · exact absurd hexclusive hg
  · have hne : s.pending.card ≠ 0 := fun hzero => hg (hiff.mpr hzero)
    omega

theorem Lost.step (hratchets : Ratchets lib pos) {base : ℕ} {action : UseAction}
    (h : Lost lib userId remoteUserId pos base use)
    (hs : useStep lib userId remoteUserId use action = some use') :
    Lost lib userId remoteUserId pos base use' := by
  obtain ⟨s, hshared, hbounded, hbehind⟩ := h
  obtain ⟨s', hshared', hstep, -⟩ := useStep_shared hratchets hshared hs
  exact ⟨s', hshared', hbounded.step hstep, hbehind.step hbounded hstep⟩

/-! ## Every run -/

/-- Without a session every call fails, and nothing changes. -/
structure Sessionless (lib : Libsignal S) (userId remoteUserId : String) (use : SessionUse S) :
    Prop where
  session : loadSession lib userId use.storage remoteUserId = none
  log : use.encryptedFrom = []
  pending : ∀ call ∈ use.calls, call.pending lib = none

theorem Sessionless.step {action : UseAction} (h : Sessionless lib userId remoteUserId use)
    (hs : useStep lib userId remoteUserId use action = some use') :
    Sessionless lib userId remoteUserId use' := by
  cases action with
  | call op =>
    obtain rfl := Option.some.inj hs
    refine ⟨h.session, h.log, fun call hcall => ?_⟩
    obtain hcall | hcall := List.mem_append.mp hcall
    · exact h.pending call hcall
    · rw [List.mem_singleton.mp hcall]
      rfl
  | next k =>
    obtain ⟨call, hcall, hstep⟩ := useStep_next hs
    have hnone := h.pending call (List.mem_of_getElem? hcall)
    cases hstep with
    | load op =>
      refine ⟨h.session, h.log, forall_set h.pending ?_⟩
      rw [h.session]
      rfl
    | fail op sessionState err _ => exact ⟨h.session, h.log, forall_set h.pending rfl⟩
    | cipher op sessionState text next hok =>
      rw [pending_cipher hok] at hnone
      cases hnone
    | store op text next => cases hnone

theorem Sessionless.exclusive (h : Sessionless lib userId remoteUserId use) (action : UseAction) :
    Exclusive lib userId remoteUserId use action := by
  cases action with
  | call op => trivial
  | next k => exact fun _ _ _ other hother => h.pending other hother

theorem sessionless_init {storage : Storage}
    (hload : loadSession lib userId storage remoteUserId = none) :
    Sessionless lib userId remoteUserId (.init storage) :=
  ⟨hload, rfl, fun _ hcall => absurd hcall List.not_mem_nil⟩

theorem Sessionless.guarded (h : Sessionless lib userId remoteUserId use)
    (actions : List UseAction) :
    Guarded (useStep lib userId remoteUserId) (Exclusive lib userId remoteUserId) use actions :=
  (guarded_congr (fun _ _ _ h hs => Sessionless.step h hs)
    (fun _ action h => iff_of_true trivial (Sessionless.exclusive h action)) h).mp
    (guarded_true use actions)

theorem Sessionless.usedOnce {storage : Storage}
    (hload : loadSession lib userId storage remoteUserId = none)
    (h : Sessionless lib userId remoteUserId use) :
    UsedOnce lib userId remoteUserId pos storage use := by
  refine ⟨?_, fun first hfirst => ?_⟩
  · rw [h.log]
    exact List.nodup_nil
  · rw [hload] at hfirst
    cases hfirst

theorem InTurn.usedOnce {storage : Storage} {first : S}
    (hfirst : loadSession lib userId storage remoteUserId = some first)
    (h : InTurn lib userId remoteUserId pos (pos first) use) :
    UsedOnce lib userId remoteUserId pos storage use := by
  obtain ⟨s, hshared, hexact, hused⟩ := h
  refine ⟨hused.nodup, fun first' hfirst' => ?_⟩
  obtain rfl := Option.some.inj (hfirst.symm.trans hfirst')
  obtain ⟨-, -, stored, hstored, hvalue⟩ := shared_pending hshared
  refine ⟨stored, hstored, ?_⟩
  rw [← hvalue, hexact.value, due_of_shared hshared rfl]

theorem inTurn_init {storage : Storage} {first : S}
    (hfirst : loadSession lib userId storage remoteUserId = some first) :
    InTurn lib userId remoteUserId pos (pos first) (.init storage) := by
  refine ⟨⟨pos first, 0, 0⟩, shared_eq_some hfirst rfl rfl, ⟨rfl, Nat.zero_le _, ?_⟩,
    ⟨List.nodup_nil, ?_⟩⟩
  · exact fun v hv => absurd hv (Multiset.notMem_zero v)
  · exact fun st hst => absurd hst List.not_mem_nil

theorem pending_of_isReturned {call : CipherCall S} (h : call.isReturned = true) :
    call.pending lib = none := by
  unfold CipherCall.isReturned at h
  split at h
  · next hpc =>
    unfold CipherCall.pending
    rw [hpc]
  · cases h

/-- When all calls have returned, a lost advance shows. -/
theorem Lost.not_usedOnce {storage : Storage} {first : S}
    (hfirst : loadSession lib userId storage remoteUserId = some first)
    (h : Lost lib userId remoteUserId pos (pos first) use)
    (hreturned : ∀ call ∈ use.calls, call.isReturned = true) :
    ¬ UsedOnce lib userId remoteUserId pos storage use := by
  obtain ⟨s, hshared, -, hbehind⟩ := h
  obtain ⟨hpending, -, stored, hstored, hvalue⟩ := shared_pending hshared
  have hnone : s.pending = 0 := by
    rw [hpending]
    refine (Multiset.coe_eq_zero _).mpr (List.filterMap_eq_nil_iff.mpr fun call hcall => ?_)
    rw [pending_of_isReturned (hreturned call hcall), Option.map_none]
  have hlt := hbehind.value_lt hnone
  rintro ⟨-, hreflected⟩
  obtain ⟨stored', hstored', hpos⟩ := hreflected first hfirst
  obtain rfl := Option.some.inj (hstored.symm.trans hstored')
  rw [hvalue, hpos, due_of_shared hshared rfl] at hlt
  exact lt_irrefl _ hlt

/-- Any number of encryptions and decryptions for one peer, interleaved in any way
    at their awaits: as long as no call reads the session between the read and the
    write of another one, no state is used twice and no advance is lost; and when
    all calls have returned, this is the only way. -/
theorem usedOnce_iff_exclusive (hratchets : Ratchets lib pos) (storage : Storage)
    (actions : List UseAction) :
    (Guarded (useStep lib userId remoteUserId) (Exclusive lib userId remoteUserId) (.init storage)
        actions →
      Throughout (useStep lib userId remoteUserId) (UsedOnce lib userId remoteUserId pos storage)
        (.init storage) actions) ∧
    ∀ use ∈ run (useStep lib userId remoteUserId) (.init storage) actions,
      (∀ call ∈ use.calls, call.isReturned = true) →
        (UsedOnce lib userId remoteUserId pos storage use ↔
          Guarded (useStep lib userId remoteUserId) (Exclusive lib userId remoteUserId)
            (.init storage) actions) := by
  cases hload : loadSession lib userId storage remoteUserId with
  | none =>
    have hinit := sessionless_init hload
    have husedOnce : ∀ acts, ∀ use ∈ run (useStep lib userId remoteUserId) (.init storage) acts,
        UsedOnce lib userId remoteUserId pos storage use := fun acts use hrun =>
      Sessionless.usedOnce hload
        (run_invariant (fun _ _ _ h hs => Sessionless.step h hs) hinit hrun)
    constructor
    · rintro - pre post rfl use hrun
      exact husedOnce pre use hrun
    · exact fun use hrun _ => iff_of_true (husedOnce actions use hrun) (hinit.guarded actions)
  | some first =>
    have hinit : InTurn lib userId remoteUserId pos (pos first) (.init storage) := inTurn_init hload
    have hinTurn : ∀ acts, Guarded (useStep lib userId remoteUserId)
        (Exclusive lib userId remoteUserId) (.init storage) acts →
          ∀ use ∈ run (useStep lib userId remoteUserId) (.init storage) acts,
            UsedOnce lib userId remoteUserId pos storage use := fun acts hg use hrun =>
      InTurn.usedOnce hload
        (hg.invariant (fun _ _ _ h hg hs => InTurn.step hratchets h hg hs) hinit hrun)
    constructor
    · rintro hg pre post rfl use hrun
      exact hinTurn pre (guarded_append.mp hg).1 use hrun
    · intro use hrun hreturned
      constructor
      · intro husedOnce
        obtain hg | hlost := guarded_or_lasting
          (fun _ _ _ h hg hs => InTurn.step hratchets h hg hs)
          (fun _ _ _ h hg hs => InTurn.lost hratchets h hg hs)
          (fun _ _ _ h hs => Lost.step hratchets h hs) hinit hrun
        · exact hg
        · exact absurd husedOnce (hlost.not_usedOnce hload hreturned)
      · exact fun hg => hinTurn actions hg use hrun

/-! ## Calls without overlap, and with -/

/-- A call on the session `sessionState` is the cipher on it. -/
theorem perform_eq {storage : Storage} {sessionState : S} (op : Op)
    (hsession : loadSession lib userId storage remoteUserId = some sessionState) :
    op.perform lib userId storage remoteUserId =
      match op.cipher lib sessionState with
      | .error err => (.error err, storage)
      | .ok (text, next) => (.ok text, storeSession lib userId storage remoteUserId next) := by
  cases op with
  | encrypt plaintext =>
    unfold Op.perform encryptMessage
    rw [hsession]
    rfl
  | decrypt ciphertext =>
    unfold Op.perform decryptMessage
    rw [hsession]
    cases ciphertext with
    | none => rfl
    | some ciphertext => rfl

/-- By its own steps alone the `k`-th call ends as `call` and leaves `storage`. -/
def Ends (lib : Libsignal S) (userId remoteUserId : String) (use : SessionUse S) (k : ℕ)
    (call : CipherCall S) (storage : Storage) : Prop :=
  ∃ n, ∃ use' ∈ run (useStep lib userId remoteUserId) use (List.replicate n (.next k)),
    use'.storage = storage ∧ use'.calls[k]? = some call

theorem Ends.of_step {k : ℕ} {op : Op} {pc : CallPc S} {call : CipherCall S} {storage : Storage}
    (hcall : use.calls[k]? = some ⟨op, pc⟩)
    (hs : callNext lib userId remoteUserId use k op pc = some use')
    (h : Ends lib userId remoteUserId use' k call storage) :
    Ends lib userId remoteUserId use k call storage := by
  obtain ⟨n, last, hrun, hlast⟩ := h
  refine ⟨n + 1, last, ?_, hlast⟩
  have hstep : useStep lib userId remoteUserId use (.next k) = some use' :=
    Option.bind_eq_some_iff.mpr ⟨_, hcall, hs⟩
  rw [List.replicate_succ, run_cons, hstep]
  exact hrun

/-- Nothing interrupts the `k`-th call: it is `encryptMessage` or `decryptMessage`. -/
theorem call_uninterrupted (lib : Libsignal S) (userId remoteUserId : String) {k : ℕ} {op : Op}
    (hcall : use.calls[k]? = some ⟨op, .load⟩) :
    Ends lib userId remoteUserId use k
      ⟨op, .returned (op.perform lib userId use.storage remoteUserId).1⟩
      (op.perform lib userId use.storage remoteUserId).2 := by
  have hlt : k < use.calls.length := (List.getElem?_eq_some_iff.mp hcall).1
  have hset : ∀ call, (use.calls.set k call)[k]? = some call := fun call =>
    List.getElem?_set_self hlt
  have hset₂ : ∀ call call', ((use.calls.set k call).set k call')[k]? = some call' := by
    intro call call'
    rw [List.set_set]
    exact hset call'
  apply Ends.of_step hcall rfl
  cases hsession : loadSession lib userId use.storage remoteUserId with
  | none =>
    apply Ends.of_step (hset _) rfl
    refine ⟨0, _, rfl, ?_, ?_⟩
    · cases op <;> simp [Op.perform, encryptMessage, decryptMessage, hsession]
    · cases op <;> simp [Op.perform, encryptMessage, decryptMessage, hsession, hlt]
  | some sessionState =>
    rw [perform_eq op hsession]
    cases hcipher : op.cipher lib sessionState with
    | error err =>
      apply Ends.of_step (hset _) (by simp only [callNext, hcipher]; rfl)
      exact ⟨0, _, rfl, rfl, hset₂ _ _⟩
    | ok r =>
      obtain ⟨text, next⟩ := r
      apply Ends.of_step (hset _) (by simp only [callNext, hcipher]; rfl)
      apply Ends.of_step (hset₂ _ _) rfl
      refine ⟨0, _, rfl, rfl, ?_⟩
      simp only [List.set_set]
      exact hset _

/-- `sampleLib` counts its steps by the length of the state. -/
theorem sampleLib_ratchets : Ratchets sampleLib String.length := by
  constructor
  · intro sessionState plaintext ciphertext next h
    obtain ⟨-, rfl⟩ := Prod.mk.inj (Except.ok.inj h)
    exact String.length_append ..
  · intro sessionState ciphertext plaintext next h
    obtain ⟨-, rfl⟩ := Prod.mk.inj (Except.ok.inj h)
    exact String.length_append ..
  · exact fun sessionState => rfl

/-- A session of user 1 with user 7 is stored. -/
def sampleSession : Storage := Storage.write (fun _ => none) (sessionSlot "1" "7") "s"

/-- A message is sent and one received, in turn. -/
def sendThenReceive : List UseAction :=
  [.call (.encrypt "hi"), .call (.decrypt (some "sealed")), .next 0, .next 0, .next 0, .next 1,
    .next 1, .next 1]

/-- Two messages are sent at once. -/
def sendTwo : List UseAction :=
  [.call (.encrypt "hi"), .call (.encrypt "there"), .next 0, .next 1, .next 0, .next 1, .next 0,
    .next 1]

theorem usedOnce_iff_exclusive_inTurn :
    Throughout (useStep sampleLib "1" "7") (UsedOnce sampleLib "1" "7" String.length sampleSession)
      (.init sampleSession) sendThenReceive :=
  (usedOnce_iff_exclusive sampleLib_ratchets sampleSession sendThenReceive).1 (by decide +kernel)

/-- Both messages are encrypted from the state first stored. -/
theorem overlap_reusesKey :
    ¬ Throughout (useStep sampleLib "1" "7")
      (UsedOnce sampleLib "1" "7" String.length sampleSession) (.init sampleSession) sendTwo := by
  have hrun : ∃ use ∈ run (useStep sampleLib "1" "7") (.init sampleSession) sendTwo,
      use.encryptedFrom = ["s", "s"] := by
    decide +kernel
  obtain ⟨use, huse, hfrom⟩ := hrun
  intro hthroughout
  have hnodup := (hthroughout sendTwo [] (List.append_nil _).symm use huse).1
  rw [hfrom] at hnodup
  exact absurd hnodup (by decide)

end IronLink.Client
