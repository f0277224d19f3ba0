import Mathlib.Logic.Function.Basic
import Mathlib.Tactic.Common

/-!
# `SignalService`

Keys, sessions, encryption and decryption of the secret chats
(frontend/lib/core/crypto/signal.dart) over the device's secure storage.
libsignal and the key server are parameters. A call that throws returns the
text of its exception; what it has stored before stays stored.

Results:
* `performX3DH_error`: the key agreement always throws.
* `performX3DH_session`: it leaves the stored sessions alone.
* `encryptMessage_noSession`: without a session `encryptMessage` throws.
-/

namespace IronLink.Client

/-! ## Model -/

/-- `FlutterSecureStorage`: values by key. -/
abbrev Storage := String → Option String

def Storage.write (storage : Storage) (key value : String) : Storage :=
  Function.update storage key (some value)

def Storage.delete (storage : Storage) (key : String) : Storage :=
  Function.update storage key none

/-- An `IdentityKeyPair`; keys are base64, as they are stored. -/
structure KeyPair where
  privateKey : String
  publicKey : String
  deriving DecidableEq

structure SignedKeyRecord where
  publicKey : String
  privateKey : String
  signature : String
  deriving DecidableEq

/-- What the service uses of libsignal; `S` is its `SessionState`. -/
structure Libsignal (S : Type) where
  /-- both halves decode: `fromBuffer(base64Decode(…))` -/
  keysValid : String → String → Bool
  base64Valid : String → Bool
  /-- `SessionState.fromJson(jsonDecode(json))` -/
  sessionFromJson : String → Option S
  sessionToJson : S → String
  /-- `SessionCipher(state).encrypt`: the ciphertext in base64 and the advanced
      state -/
  encrypt : S → String → Except String (String × S)
  /-- `SessionCipher(state).decrypt` of a ciphertext in base64 -/
  decrypt : S → String → Except String (String × S)

/-- What `IdentityKeyPair.generate()` returns: the two halves decode again. -/
structure Generated {S : Type} (lib : Libsignal S) extends KeyPair where
  valid : lib.keysValid privateKey publicKey = true

/-- The key routes of the server: the public keys of one-time pre-keys, and the
    signed pre-key. -/
structure KeyServer where
  preKeys : String → Except String (List String)
  signedPreKey : String → Except String (Option SignedKeyRecord)

section Keys

variable {S : Type} (lib : Libsignal S) (keys : KeyServer) (userId : String)

/-- `getOrCreateIdentityKeyPair` (core/crypto/signal.dart:21-48); `fresh` is the
    pair it generates. -/
def getOrCreateIdentityKeyPair (fresh : KeyPair) (storage : Storage) : KeyPair × Storage :=
  let privateSlot := "signal_identity_private_" ++ userId
  let publicSlot := "signal_identity_public_" ++ userId
  let generated (storage : Storage) :=
    (fresh, (storage.write privateSlot fresh.privateKey).write publicSlot fresh.publicKey)
  match storage privateSlot, storage publicSlot with
  | some privateKey, some publicKey =>
    if lib.keysValid privateKey publicKey then (⟨privateKey, publicKey⟩, storage)
    else generated ((storage.delete privateSlot).delete publicSlot)
  | _, _ => generated storage

/-- `loadSignedPreKey` (core/crypto/signal.dart:177-194). -/
def loadSignedPreKey (storage : Storage) : Option SignedKeyRecord :=
  match storage ("signal_signed_prekey_private_" ++ userId ++ "_0"),
    storage ("signal_signed_prekey_public_" ++ userId ++ "_0"),
    storage ("signal_signed_prekey_signature_" ++ userId ++ "_0") with
  | some privateKey, some publicKey, some signature =>
    if lib.keysValid privateKey publicKey && lib.base64Valid signature then
      some ⟨publicKey, privateKey, signature⟩
    else none
  | _, _, _ => none

/-- `fetchRemoteIdentityPublicKey` (core/crypto/signal.dart:201-206) returns null. -/
def fetchRemoteIdentityPublicKey (_remoteUserId : String) : Option String := none

structure X3DHOutput where
  identityKeyPair : KeyPair
  signedPreKeyRecord : SignedKeyRecord
  ephemeralKeyPair : KeyPair
  remoteIdentityPublicKey : String
  remoteSignedPreKeyRecord : SignedKeyRecord
  remotePreKey : String

/-- `if (value == null) throw Exception(message)`. -/
def orThrow {α : Type} (value : Option α) (message : String) : Except String α :=
  value.elim (.error message) .ok

/-- `performX3DH` (core/crypto/signal.dart:318-367). -/
def performX3DH (fresh ephemeral : KeyPair) (storage : Storage) (remoteUserId : String) :
    Except String X3DHOutput × Storage :=
  let identity := getOrCreateIdentityKeyPair lib userId fresh storage
  let output : Except String X3DHOutput := do
    let signedPreKeyRecord ←
      orThrow (loadSignedPreKey lib userId identity.2) "No signed pre-key available"
    let remoteIdentityPublicKey ←
      orThrow (fetchRemoteIdentityPublicKey remoteUserId)
        ("Could not fetch identity key for " ++ remoteUserId)
    let remotePreKeys ← keys.preKeys remoteUserId
    let remotePreKey ←
      orThrow remotePreKeys.head? ("No pre-keys available for " ++ remoteUserId)
    let remoteSignedPreKey ← keys.signedPreKey remoteUserId
    let remoteSignedPreKeyRecord ←
      orThrow remoteSignedPreKey ("No signed pre-key available for " ++ remoteUserId)
    return ⟨identity.1, signedPreKeyRecord, ephemeral, remoteIdentityPublicKey,
      remoteSignedPreKeyRecord, remotePreKey⟩
  (output, identity.2)

/-- `initSessionAsSender` (core/crypto/signal.dart:373-420) ends in a `throw`. -/
def initSessionAsSender (_remoteUserId : String) (_x3dhOutput : Option X3DHOutput) :
    Except String S :=
  .error "Session initialization requires more detailed implementation"

/-- The key under which a session is stored. -/
def sessionSlot (remoteUserId : String) : String :=
  "signal_session_" ++ userId ++ "_" ++ remoteUserId

/-- `loadSession` (core/crypto/signal.dart:280-289). -/
def loadSession (storage : Storage) (remoteUserId : String) : Option S :=
  (storage (sessionSlot userId remoteUserId)).bind lib.sessionFromJson

/-- `storeSession` (core/crypto/signal.dart:292-296). -/
def storeSession (storage : Storage) (remoteUserId : String) (sessionState : S) : Storage :=
  storage.write (sessionSlot userId remoteUserId) (lib.sessionToJson sessionState)

/-- The text of the exception both directions throw without a session. -/
def noSession (remoteUserId : String) : String :=
  "No session established with " ++ remoteUserId ++ ". Perform X3DH first."

/-- `encryptMessage` (core/crypto/signal.dart:438-459). -/
def encryptMessage (storage : Storage) (plaintext remoteUserId : String) :
    Except String String × Storage :=
  match loadSession lib userId storage remoteUserId with
  | none => (.error (noSession remoteUserId), storage)
  | some sessionState =>
    match lib.encrypt sessionState plaintext with
    | .error err => (.error err, storage)
    | .ok (ciphertext, next) => (.ok ciphertext, storeSession lib userId storage remoteUserId next)

/-- `decryptMessage` (core/crypto/signal.dart:465-487); `ciphertext` is the entry
    of the map, which the service casts to a `String`. -/
def decryptMessage (storage : Storage) (ciphertext : Option String) (remoteUserId : String) :
    Except String String × Storage :=
  match loadSession lib userId storage remoteUserId with
  | none => (.error (noSession remoteUserId), storage)
  | some sessionState =>
    match ciphertext with
    | none => (.error "type 'Null' is not a subtype of type 'String' in type cast", storage)
    | some ciphertext =>
      match lib.decrypt sessionState ciphertext with
      | .error err => (.error err, storage)
      | .ok (plaintext, next) =>
        (.ok plaintext, storeSession lib userId storage remoteUserId next)

end Keys

/-- A stand-in for libsignal: a state is its own serialisation, the ciphertext
    shows the step of the ratchet and nothing of the plaintext. -/
def sampleLib : Libsignal String :=
  { keysValid := fun _ _ => true
    base64Valid := fun _ => true
    sessionFromJson := some
    sessionToJson := id
    encrypt := fun sessionState _ => .ok ("sealed" ++ sessionState, sessionState ++ "+")
    decrypt := fun sessionState ciphertext => .ok (ciphertext, sessionState ++ "+") }

/-- No key server can be reached. -/
def sampleKeys : KeyServer := ⟨fun _ => .error "offline", fun _ => .error "offline"⟩

/-! ## The key agreement -/

variable {S : Type} {lib : Libsignal S} {keys : KeyServer} {userId remoteUserId : String}
  {storage : Storage}

/-- No identity key is ever fetched, so no key agreement succeeds. -/
theorem performX3DH_error (lib : Libsignal S) (keys : KeyServer) (userId : String)
    (fresh ephemeral : KeyPair) (storage : Storage) (remoteUserId : String) :
    ∃ err, (performX3DH lib keys userId fresh ephemeral storage remoteUserId).1 = .error err := by
  unfold performX3DH
  simp only
  cases loadSignedPreKey lib userId (getOrCreateIdentityKeyPair lib userId fresh storage).2 with
  | none => exact ⟨"No signed pre-key available", rfl⟩
  | some record => exact ⟨"Could not fetch identity key for " ++ remoteUserId, rfl⟩

theorem Storage.write_of_ne {key key' value : String} (h : key' ≠ key) :
    (storage.write key value) key' = storage key' := Function.update_of_ne h _ _

theorem Storage.delete_of_ne {key key' : String} (h : key' ≠ key) :
    (storage.delete key) key' = storage key' := Function.update_of_ne h _ _

/-- Names that differ early differ. -/
theorem append_ne {a b : String} (n : ℕ) (ha : n ≤ a.toList.length) (hb : n ≤ b.toList.length)
    (hne : a.toList.take n ≠ b.toList.take n) (x y : String) : a ++ x ≠ b ++ y := by
  intro h
  apply hne
  have htake := congrArg (fun s : String => s.toList.take n) h
  simp only [String.toList_append] at htake
  rwa [List.take_append_of_le_length ha, List.take_append_of_le_length hb] at htake

/-- The identity keys stand in two slots; the others are left alone. -/
theorem getOrCreateIdentityKeyPair_of_ne (lib : Libsignal S) (userId : String) (fresh : KeyPair)
    (storage : Storage) {key : String} (hprivate : key ≠ "signal_identity_private_" ++ userId)
    (hpublic : key ≠ "signal_identity_public_" ++ userId) :
    (getOrCreateIdentityKeyPair lib userId fresh storage).2 key = storage key := by
  unfold getOrCreateIdentityKeyPair
  simp only
  split
  · split_ifs
    · rfl
    · simp only [Storage.write_of_ne hpublic, Storage.write_of_ne hprivate,
        Storage.delete_of_ne hpublic, Storage.delete_of_ne hprivate]
  · simp only [Storage.write_of_ne hpublic, Storage.write_of_ne hprivate]

/-- A session is not stored under the name of an identity key. -/
theorem sessionSlot_ne (userId remoteUserId suffix : String) :
    sessionSlot userId remoteUserId ≠ "signal_identity_private_" ++ suffix ∧
      sessionSlot userId remoteUserId ≠ "signal_identity_public_" ++ suffix := by
  unfold sessionSlot
  rw [String.append_assoc, String.append_assoc]
  constructor
  · exact append_ne 8 (by decide) (by decide) (by decide) _ _
  · exact append_ne 8 (by decide) (by decide) (by decide) _ _

theorem performX3DH_session (lib : Libsignal S) (keys : KeyServer) (userId : String)
    (fresh ephemeral : KeyPair) (storage : Storage) (remoteUserId : String) :
    loadSession lib userId
        (performX3DH lib keys userId fresh ephemeral storage remoteUserId).2 remoteUserId =
      loadSession lib userId storage remoteUserId := by
  obtain ⟨hprivate, hpublic⟩ := sessionSlot_ne userId remoteUserId userId
  have hslot : (performX3DH lib keys userId fresh ephemeral storage remoteUserId).2
      (sessionSlot userId remoteUserId) = storage (sessionSlot userId remoteUserId) :=
    getOrCreateIdentityKeyPair_of_ne lib userId fresh storage hprivate hpublic
  unfold loadSession
  rw [hslot]

/-! ## Encryption -/

/-- There is no encryption without a session. -/
theorem encryptMessage_noSession {plaintext : String}
    (h : loadSession lib userId storage remoteUserId = none) :
    (encryptMessage lib userId storage plaintext remoteUserId).1 =
      .error (noSession remoteUserId) := by
  unfold encryptMessage
  rw [h]

end IronLink.Client
