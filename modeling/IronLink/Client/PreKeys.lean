import IronLink.Client.Signal
import IronLink.Lib.Run
import Mathlib

/-!
# The pre-keys of a device

`generateAndUploadPreKeys`, `loadPreKey` and `removePreKey`
(frontend/lib/core/crypto/signal.dart:58-130). Every call numbers its pre-keys from 1
and writes them to the storage one by one, over those of earlier calls, before it
uploads the public keys.

Results:
* `answers_iff_guarded`: the device can answer for every pre-key that the server offers
  and the device has not removed, throughout exactly the runs in which an upload fails
  only when the server offers none of the keys that the call has written over.
* `failed_upload_strands`: one that fails later leaves the server with keys that nobody
  can use.
-/

namespace IronLink.Client

open Lib

/-! ## Model -/

structure PreKeyRecord where
  id : String
  publicKey : String
  privateKey : String
  deriving DecidableEq

structure HttpResponse where
  statusCode : ℕ
  body : String

/-- `'signal_prekey_private_$_userId\_$keyId'` -/
def preKeyPrivateSlot (userId : String) (keyId : ℤ) : String :=
  "signal_prekey_private_" ++ userId ++ "_" ++ toString keyId

/-- `'signal_prekey_public_$_userId\_$keyId'` -/
def preKeyPublicSlot (userId : String) (keyId : ℤ) : String :=
  "signal_prekey_public_" ++ userId ++ "_" ++ toString keyId

section Keys

variable {S : Type} (lib : Libsignal S) (userId : String)

/-- The two writes of a round (core/crypto/signal.dart:69-74). -/
def writePreKey (storage : Storage) (preKeyId : ℤ) (keyPair : KeyPair) : Storage :=
  (storage.write (preKeyPrivateSlot userId preKeyId) keyPair.privateKey).write
    (preKeyPublicSlot userId preKeyId) keyPair.publicKey

/-- The loop (core/crypto/signal.dart:64-78) from the number `preKeyId` on. -/
def writePreKeys (storage : Storage) (preKeyId : ℤ) : List KeyPair → Storage × List PreKeyRecord
  | [] => (storage, [])
  | keyPair :: pairs =>
    let rest := writePreKeys (writePreKey userId storage preKeyId keyPair) (preKeyId + 1) pairs
    (rest.1, ⟨toString preKeyId, keyPair.publicKey, keyPair.privateKey⟩ :: rest.2)

/-- `generateAndUploadPreKeys` (core/crypto/signal.dart:60-105). `pairs` are the `count`
    pairs it generates, `fresh` the one a new identity would have, and `response` what
    `http.post` returns or throws. -/
def generateAndUploadPreKeys (fresh : KeyPair) (pairs : List KeyPair)
    (response : Except String HttpResponse) (storage : Storage) :
    Except String (List PreKeyRecord) × Storage :=
  let identity := getOrCreateIdentityKeyPair lib userId fresh storage
  let written := writePreKeys userId identity.2 1 pairs
  match response with
  | .error err => (.error err, written.1)
  | .ok response =>
    if response.statusCode ≠ 200 ∧ response.statusCode ≠ 201 then
      (.error ("Exception: Failed to upload pre-keys: " ++ response.body), written.1)
    else (.ok written.2, written.1)

/-- `loadPreKey` (core/crypto/signal.dart:108-123). -/
def loadPreKey (storage : Storage) (keyId : ℤ) : Option PreKeyRecord :=
  match storage (preKeyPrivateSlot userId keyId), storage (preKeyPublicSlot userId keyId) with
  | some privateKey, some publicKey =>
    if lib.keysValid privateKey publicKey then some ⟨toString keyId, publicKey, privateKey⟩
    else none
  | _, _ => none

/-- `removePreKey` (core/crypto/signal.dart:126-129). -/
def removePreKey (storage : Storage) (keyId : ℤ) : Storage :=
  (storage.delete (preKeyPrivateSlot userId keyId)).delete (preKeyPublicSlot userId keyId)

end Keys

/-- The pair with the number `keyId`, when `pairs` are numbered from `first` on. -/
def numbered (first : ℤ) (pairs : List KeyPair) (keyId : ℤ) : Option KeyPair :=
  if first ≤ keyId then pairs[(keyId - first).toNat]? else none

/-- The device's storage and the public keys the server offers. `removed` is no data of
    the program: it tells which of the keys on offer the device has removed. -/
structure PreKeyState where
  storage : Storage
  offered : ℤ → Option String
  removed : ℤ → Bool

/-- Nothing is on offer. -/
def PreKeyState.init (storage : Storage) : PreKeyState := ⟨storage, fun _ => none, fun _ => false⟩

/-- The server stores the uploaded keys under their ids. -/
def PreKeyState.publish (s : PreKeyState) (pairs : List KeyPair) : PreKeyState :=
  { s with
    offered := fun id => (numbered 1 pairs id).elim (s.offered id) fun pair => some pair.publicKey
    removed := fun id => (numbered 1 pairs id).isNone && s.removed id }

inductive PreKeyAction {S : Type} (lib : Libsignal S)
  | generate (fresh : KeyPair) (pairs : List (Generated lib))
      (response : Except String HttpResponse)
  | remove (keyId : ℤ)

section Step

variable {S : Type} (lib : Libsignal S) (userId : String)

def preKeyStep (s : PreKeyState) : PreKeyAction lib → Option PreKeyState
  | .generate fresh pairs response =>
    let pairs := pairs.map Generated.toKeyPair
    let result := generateAndUploadPreKeys lib userId fresh pairs response s.storage
    let s := { s with storage := result.2 }
    some (match result.1 with
      | .error _ => s
      | .ok _ => s.publish pairs)
  | .remove keyId => some { s with
      storage := removePreKey userId s.storage keyId
      removed := Function.update s.removed keyId true }

/-! ## Answering -/

/-- For every pre-key on offer that the device has not removed, `loadPreKey` returns a
    pair with that public key. -/
def AnswersAll (s : PreKeyState) : Prop :=
  ∀ id pub, s.offered id = some pub → s.removed id = false →
    ∃ record, loadPreKey lib userId s.storage id = some record ∧ record.publicKey = pub

/-- An upload fails only when the server offers none of the keys the call has written
    over, unless one that was removed or the very same. -/
def UploadFresh (s : PreKeyState) : PreKeyAction lib → Prop
  | .generate fresh pairs response =>
    (∃ err, (generateAndUploadPreKeys lib userId fresh (pairs.map Generated.toKeyPair) response
        s.storage).1 = .error err) →
      ∀ id pair, numbered 1 (pairs.map Generated.toKeyPair) id = some pair →
        ∀ pub, s.offered id = some pub → s.removed id = false → pair.publicKey = pub
  | .remove _ => True

end Step

variable {S : Type} {lib : Libsignal S} {userId : String} {storage storage' : Storage}
  {s s' : PreKeyState} {first id keyId : ℤ} {pair : KeyPair}

/-! ## Slots -/

theorem preKeySlot_ne (userId : String) (id keyId : ℤ) :
    preKeyPrivateSlot userId id ≠ preKeyPublicSlot userId keyId := by
  unfold preKeyPrivateSlot preKeyPublicSlot
  rw [String.append_assoc, String.append_assoc, String.append_assoc, String.append_assoc]
  exact append_ne 16 (by decide) (by decide) (by decide) _ _

theorem preKeySlot_inj (userId : String) (h : id ≠ keyId) :
    preKeyPrivateSlot userId id ≠ preKeyPrivateSlot userId keyId ∧
      preKeyPublicSlot userId id ≠ preKeyPublicSlot userId keyId := by
  unfold preKeyPrivateSlot preKeyPublicSlot
  constructor
  · exact fun hslot => h (Int.repr_injective (String.append_right_inj _ |>.mp hslot))
  · exact fun hslot => h (Int.repr_injective (String.append_right_inj _ |>.mp hslot))

/-- The two values stored for a pre-key. -/
def stored (userId : String) (storage : Storage) (id : ℤ) : Option String × Option String :=
  (storage (preKeyPrivateSlot userId id), storage (preKeyPublicSlot userId id))

/-- The values of a pair. -/
def KeyPair.values (pair : KeyPair) : Option String × Option String :=
  (some pair.privateKey, some pair.publicKey)

theorem stored_writePreKey (storage : Storage) (keyId : ℤ) (pair : KeyPair) (id : ℤ) :
    stored userId (writePreKey userId storage keyId pair) id =
      if id = keyId then pair.values else stored userId storage id := by
  unfold stored writePreKey
  split_ifs with hid
  · subst hid
    rw [Storage.write_of_ne (preKeySlot_ne _ _ _)]
    unfold Storage.write KeyPair.values
    rw [Function.update_self, Function.update_self]
  · obtain ⟨hprivate, hpublic⟩ := preKeySlot_inj userId hid
    rw [Storage.write_of_ne (preKeySlot_ne _ _ _), Storage.write_of_ne hprivate,
      Storage.write_of_ne hpublic, Storage.write_of_ne (preKeySlot_ne _ _ _).symm]

theorem stored_removePreKey (storage : Storage) (h : id ≠ keyId) :
    stored userId (removePreKey userId storage keyId) id = stored userId storage id := by
  obtain ⟨hprivate, hpublic⟩ := preKeySlot_inj userId h
  unfold stored removePreKey
  rw [Storage.delete_of_ne (preKeySlot_ne _ _ _), Storage.delete_of_ne hprivate,
    Storage.delete_of_ne hpublic, Storage.delete_of_ne (preKeySlot_ne _ _ _).symm]

theorem stored_identity (lib : Libsignal S) (fresh : KeyPair) (storage : Storage) (id : ℤ) :
    stored userId (getOrCreateIdentityKeyPair lib userId fresh storage).2 id =
      stored userId storage id := by
  unfold stored preKeyPrivateSlot preKeyPublicSlot
  rw [String.append_assoc, String.append_assoc, String.append_assoc, String.append_assoc]
  rw [getOrCreateIdentityKeyPair_of_ne, getOrCreateIdentityKeyPair_of_ne]
  · exact append_ne 8 (by decide) (by decide) (by decide) _ _
  · exact append_ne 8 (by decide) (by decide) (by decide) _ _
  · exact append_ne 8 (by decide) (by decide) (by decide) _ _
  · exact append_ne 8 (by decide) (by decide) (by decide) _ _

/-! ## Numbered pairs -/

theorem numbered_nil (first id : ℤ) : numbered first [] id = none := by
  unfold numbered
  split_ifs <;> rfl

theorem numbered_cons (first : ℤ) (pair : KeyPair) (pairs : List KeyPair) (id : ℤ) :
    numbered first (pair :: pairs) id =
      if id = first then some pair else numbered (first + 1) pairs id := by
  unfold numbered
  obtain hlt | rfl | hgt := lt_trichotomy id first
  · rw [if_neg (by omega), if_neg (by omega), if_neg (by omega)]
  · rw [if_pos le_rfl, if_pos rfl, Int.sub_self]
    rfl
  · rw [if_pos (by omega), if_neg (by omega), if_pos (by omega)]
    have hnext : (id - first).toNat = (id - (first + 1)).toNat + 1 := by omega
    rw [hnext, List.getElem?_cons_succ]

theorem numbered_mem {pairs : List KeyPair} (h : numbered first pairs id = some pair) :
    pair ∈ pairs := by
  unfold numbered at h
  split_ifs at h
  exact List.mem_of_getElem? h

/-- After the loop a number of the call holds the pair of the call, any other number what
    it held before. -/
theorem stored_writePreKeys (userId : String) (storage : Storage) (first : ℤ)
    (pairs : List KeyPair) (id : ℤ) :
    stored userId (writePreKeys userId storage first pairs).1 id =
      (numbered first pairs id).elim (stored userId storage id) KeyPair.values := by
  induction pairs generalizing storage first with
  | nil =>
    rw [numbered_nil]
    rfl
  | cons pair pairs ih =>
    show stored userId (writePreKeys userId (writePreKey userId storage first pair) (first + 1)
      pairs).1 id = _
    rw [ih, numbered_cons, stored_writePreKey]
    split_ifs with hid
    · subst hid
      have hnone : numbered (id + 1) pairs id = none := if_neg (by omega)
      rw [hnone]
      rfl
    · rfl

/-! ## Loading -/

theorem loadPreKey_congr (h : stored userId storage' id = stored userId storage id) :
    loadPreKey lib userId storage' id = loadPreKey lib userId storage id := by
  obtain ⟨hprivate, hpublic⟩ := Prod.mk.inj h
  unfold loadPreKey
  rw [hprivate, hpublic]

theorem loadPreKey_of_values (h : stored userId storage id = pair.values)
    (hvalid : lib.keysValid pair.privateKey pair.publicKey = true) :
    loadPreKey lib userId storage id = some ⟨toString id, pair.publicKey, pair.privateKey⟩ := by
  obtain ⟨hprivate, hpublic⟩ := Prod.mk.inj h
  unfold loadPreKey
  rw [hprivate, hpublic]
  exact if_pos hvalid

/-- What a call leaves under a number, whether its upload succeeds or not. -/
theorem loadPreKey_generate (userId : String) (s : PreKeyState) (fresh : KeyPair)
    (pairs : List (Generated lib)) (response : Except String HttpResponse) (id : ℤ) :
    loadPreKey lib userId (generateAndUploadPreKeys lib userId fresh
        (pairs.map Generated.toKeyPair) response s.storage).2 id =
      (numbered 1 (pairs.map Generated.toKeyPair) id).elim (loadPreKey lib userId s.storage id)
        fun pair => some ⟨toString id, pair.publicKey, pair.privateKey⟩ := by
  have hwritten : (generateAndUploadPreKeys lib userId fresh (pairs.map Generated.toKeyPair)
      response s.storage).2 = (writePreKeys userId
        (getOrCreateIdentityKeyPair lib userId fresh s.storage).2 1
        (pairs.map Generated.toKeyPair)).1 := by
    unfold generateAndUploadPreKeys
    cases response with
    | error err => rfl
    | ok response =>
      dsimp only
      split_ifs <;> rfl
  have hstored := stored_writePreKeys userId
    (getOrCreateIdentityKeyPair lib userId fresh s.storage).2 1 (pairs.map Generated.toKeyPair) id
  rw [stored_identity] at hstored
  rw [hwritten]
  cases hpair : numbered 1 (pairs.map Generated.toKeyPair) id with
  | none =>
    rw [hpair] at hstored
    exact loadPreKey_congr hstored
  | some pair =>
    rw [hpair] at hstored
    obtain ⟨made, -, rfl⟩ := List.mem_map.mp (numbered_mem hpair)
    exact loadPreKey_of_values hstored made.valid

/-! ## Every run -/

theorem generate_succeeds_or_fails (lib : Libsignal S) (userId : String) (fresh : KeyPair)
    (pairs : List KeyPair) (response : Except String HttpResponse) (storage : Storage) :
    (∃ err, (generateAndUploadPreKeys lib userId fresh pairs response storage).1 = .error err) ∨
      ∃ records,
        (generateAndUploadPreKeys lib userId fresh pairs response storage).1 = .ok records := by
  cases (generateAndUploadPreKeys lib userId fresh pairs response storage).1 with
  | error err => exact .inl ⟨err, rfl⟩
  | ok records => exact .inr ⟨records, rfl⟩

/-- A call whose upload succeeds: the server offers what the storage holds. -/
theorem answers_publish (h : AnswersAll lib userId s) (pairs : List KeyPair) (storage : Storage)
    (hload : ∀ id, loadPreKey lib userId storage id =
      (numbered 1 pairs id).elim (loadPreKey lib userId s.storage id)
        fun pair => some ⟨toString id, pair.publicKey, pair.privateKey⟩) :
    AnswersAll lib userId (PreKeyState.publish { s with storage := storage } pairs) := by
  intro id pub hoffered hremoved
  change (numbered 1 pairs id).elim (s.offered id) _ = some pub at hoffered
  change ((numbered 1 pairs id).isNone && s.removed id) = false at hremoved
  show ∃ record, loadPreKey lib userId storage id = some record ∧ _
  rw [hload]
  cases hpair : numbered 1 pairs id with
  | none =>
    rw [hpair] at hoffered hremoved
    exact h id pub hoffered hremoved
  | some pair =>
    rw [hpair] at hoffered
    exact ⟨_, rfl, Option.some.inj hoffered⟩

/-- A call whose upload fails has written over the keys of its numbers. -/
theorem answers_failed_iff (h : AnswersAll lib userId s) (pairs : List KeyPair)
    (storage : Storage) (hload : ∀ id, loadPreKey lib userId storage id =
      (numbered 1 pairs id).elim (loadPreKey lib userId s.storage id)
        fun pair => some ⟨toString id, pair.publicKey, pair.privateKey⟩) :
    AnswersAll lib userId { s with storage := storage } ↔
      ∀ id pair, numbered 1 pairs id = some pair →
        ∀ pub, s.offered id = some pub → s.removed id = false → pair.publicKey = pub := by
  constructor
  · intro hafter id pair hpair pub hoffered hremoved
    obtain ⟨record, hrecord, rfl⟩ := hafter id pub hoffered hremoved
    change loadPreKey lib userId storage id = _ at hrecord
    rw [hload, hpair] at hrecord
    cases hrecord
    rfl
  · intro hsame id pub hoffered hremoved
    show ∃ record, loadPreKey lib userId storage id = some record ∧ _
    rw [hload]
    cases hpair : numbered 1 pairs id with
    | none => exact h id pub hoffered hremoved
    | some pair => exact ⟨_, rfl, hsame id pair hpair pub hoffered hremoved⟩

theorem answers_remove (h : AnswersAll lib userId s) (keyId : ℤ) :
    AnswersAll lib userId { s with
      storage := removePreKey userId s.storage keyId
      removed := Function.update s.removed keyId true } := by
  intro id pub hoffered hremoved
  by_cases hid : id = keyId
  · subst hid
    change Function.update s.removed id true id = false at hremoved
    rw [Function.update_self] at hremoved
    cases hremoved
  · change Function.update s.removed keyId true id = false at hremoved
    rw [Function.update_of_ne hid] at hremoved
    show ∃ record, loadPreKey lib userId (removePreKey userId s.storage keyId) id = _ ∧ _
    rw [loadPreKey_congr (stored_removePreKey s.storage hid)]
    exact h id pub hoffered hremoved

/-- What a step makes of a device that can answer for all keys. -/
theorem answers_step_iff {a : PreKeyAction lib} (h : AnswersAll lib userId s)
    (hs : preKeyStep lib userId s a = some s') :
    AnswersAll lib userId s' ↔ UploadFresh lib userId s a := by
  cases a with
  | generate fresh pairs response =>
    have hload := loadPreKey_generate userId s fresh pairs response
    unfold preKeyStep at hs
    dsimp only at hs
    obtain ⟨err, hfails⟩ | ⟨records, hsucceeds⟩ := generate_succeeds_or_fails lib userId fresh
      (pairs.map Generated.toKeyPair) response s.storage
    · rw [hfails] at hs
      cases hs
      rw [answers_failed_iff h _ _ hload]
      exact ⟨fun hsame _ => hsame, fun hfresh => hfresh ⟨err, hfails⟩⟩
    · rw [hsucceeds] at hs
      cases hs
      refine iff_of_true (answers_publish h _ _ hload) fun ⟨err, hfails⟩ => ?_
      rw [hsucceeds] at hfails
      cases hfails
  | remove keyId =>
    cases hs
    exact iff_of_true (answers_remove h keyId) trivial

/-- **Answering.** From any storage, with nothing on offer, the device can answer for
    every pre-key on offer throughout exactly the runs in which a failed upload has
    written over none of them. -/
theorem answers_iff_guarded (lib : Libsignal S) (userId : String) (storage : Storage)
    (as : List (PreKeyAction lib)) :
    Throughout (preKeyStep lib userId) (AnswersAll lib userId) (PreKeyState.init storage) as ↔
      Guarded (preKeyStep lib userId) (UploadFresh lib userId) (PreKeyState.init storage) as := by
  refine throughout_iff_guarded (I := AnswersAll lib userId) (fun _ h => h)
    (fun _ _ _ h hg hs => (answers_step_iff h hs).mpr hg) (fun s a h hg => ?_) ?_
  · cases a with
    | generate fresh pairs response =>
      exact ⟨_, rfl, mt (answers_step_iff h rfl).mp hg⟩
    | remove keyId => exact absurd trivial hg
  · exact fun id pub hoffered => (by cases hoffered)

/-- One pair after another, for the examples. -/
def samplePair (n : ℕ) : Generated sampleLib :=
  ⟨⟨"private" ++ toString n, "public" ++ toString n⟩, rfl⟩

/-- A second call writes over the first key and cannot reach the server. -/
theorem failed_upload_strands :
    ¬ ∀ (lib : Libsignal String) userId storage as,
      Throughout (preKeyStep lib userId) (AnswersAll lib userId) (PreKeyState.init storage) as := by
  intro h
  let as : List (PreKeyAction sampleLib) := [.generate ⟨"i", "I"⟩ [samplePair 1] (.ok ⟨201, ""⟩),
    .generate ⟨"j", "J"⟩ [samplePair 2] (.error "offline")]
  have hrun : (run (preKeyStep sampleLib "7") (PreKeyState.init fun _ => none) as).map
      (fun s => (s.offered 1, s.removed 1, loadPreKey sampleLib "7" s.storage 1)) =
      some (some "public1", false, some ⟨"1", "public2", "private2"⟩) := by
    decide +kernel
  obtain ⟨s, hs, heq⟩ := Option.map_eq_some_iff.mp hrun
  obtain ⟨hoffered, hremoved, hload⟩ : s.offered 1 = some "public1" ∧ s.removed 1 = false ∧
      loadPreKey sampleLib "7" s.storage 1 = some ⟨"1", "public2", "private2"⟩ := by
    simpa only [Prod.mk.injEq] using heq
  obtain ⟨record, hrecord, hpub⟩ :=
    h sampleLib "7" (fun _ => none) as as [] (List.append_nil _).symm s hs 1 "public1" hoffered
      hremoved
  rw [hload] at hrecord
  cases hrecord
  exact absurd hpub (by decide)

end IronLink.Client
