import IronLink.Common.Json
import IronLink.Lib.Run
import IronLink.Lib.Ttl
import Mathlib.Data.List.AList

/-!
# The pre-keys of a user

`EncryptionService` (backend/app/services/encryption_service.py) on the two places
where Redis keeps a pre-key: the public half in one hash per user, which never
expires, and the private half in a record of its own, which lives 30 days. A key in
Redis is the base64 of its bytes; the model holds the bytes. The pairs libsignal
generates, and the bytes `os.urandom` returns, are part of a call.

Results:
* `usable_iff_guarded`: every listed pre-key has the private half of its pair throughout
  exactly the runs in which a key that is uploaded is the public half of the pair the
  server generates for it, and no listed key's record expires.
* `upload_unpaired`: a client that uploads its own key breaks it.
-/

namespace IronLink.Keys

open Lib

/-! ## Model -/

abbrev Bytes := List UInt8

/-- The keys of one user. Ids are texts, `str(pre_key_id)`. -/
structure PreKeyStore where
  /-- `user:{user_id}:prekeys` -/
  listed : AList fun _ : String => Bytes
  /-- the field `private` of `user:{user_id}:prekey:{pre_key_id}` -/
  records : TtlMap Time String Bytes

def PreKeyStore.empty : PreKeyStore := ⟨∅, fun _ => none⟩

/-- `30 * 24 * 3600` -/
def PRE_KEY_SECONDS : ℤ := 30 * 24 * 3600

/-- A private half in its record, which is to expire, and a public half in the hash. -/
def PreKeyStore.put (store : PreKeyStore) (now : Time) (id : String) (priv pub : Bytes) :
    PreKeyStore :=
  { listed := store.listed.insert id pub
    records := (store.records.hset now id priv).expire now id (now + seconds PRE_KEY_SECONDS) }

/-- The random id of a new pre-key: the first that is not listed (lines 80-83); `draws`
    are the numbers that `os.urandom(4)` gives. -/
def freshId (listed : AList fun _ : String => Bytes) (draws : List ℕ) : Option ℕ :=
  (draws.map (· &&& 0x7FFFFFFF)).find? fun id => (listed.lookup (toString id)).isNone

/-- What one round of `generate_pre_keys` draws: the numbers, and a private key. -/
structure Drawn where
  numbers : List ℕ
  priv : Bytes

/-- A pre-key object: `{publicKey, keyId}`. -/
structure PublicPreKey where
  publicKey : Bytes
  keyId : ℕ
  deriving DecidableEq

/-- A response of the key routes. -/
structure Reply where
  status : ℕ
  key : String
  text : String
  deriving DecidableEq

/-- The `keyId` of a request, as it stands in Redis: a non-negative `int`, and Python's
    `bool` is one. -/
def keyIdText : Json → Option String
  | .int n => if n < 0 then none else some (toString n)
  | .bool b => some (if b then "True" else "False")
  | _ => none

section Service

variable (publicOf : Bytes → Bytes)

/-- `generate_pre_keys` (encryption_service.py:72-112), a round for each of `drawn`; `none`
    when `os.urandom` gives no free id. -/
def generatePreKeys (store : PreKeyStore) (now : Time) :
    List Drawn → Option (PreKeyStore × List PublicPreKey)
  | [] => some (store, [])
  | d :: drawn =>
    (freshId store.listed d.numbers).bind fun id =>
      (generatePreKeys (store.put now (toString id) d.priv (publicOf d.priv)) now drawn).map
        fun rest => (rest.1, ⟨publicOf d.priv, id⟩ :: rest.2)

end Service

/-- `store_pre_key` (encryption_service.py:159-184); `generated` is the private half of
    the pair that `PreKey.generate` makes up. -/
def storePreKey (store : PreKeyStore) (now : Time) (id : String) (publicKey generated : Bytes) :
    PreKeyStore :=
  store.put now id generated publicKey

/-- `upload_prekey` (backend/app/api/routes/keys.py:83-120). `decoded` is what
    `b64decode` makes of the key, and `generated` what `PreKey.generate` makes up; `none`
    when it raises. -/
def uploadPrekey (store : PreKeyStore) (now : Time) (data : Frame)
    (decoded generated : Option Bytes) : PreKeyStore × Reply :=
  if (data.lookup "publicKey").isNone || (data.lookup "keyId").isNone then
    (store, ⟨400, "error", "Public key and key ID are required"⟩)
  else
    match decoded with
    | none => (store, ⟨400, "error", "Invalid public key format"⟩)
    | some publicKey =>
      match keyIdText (Json.get data "keyId") with
      | none => (store, ⟨400, "error", "Key ID must be a non-negative integer"⟩)
      | some id =>
        match generated with
        | none => (store, ⟨500, "error", "Internal server error"⟩)
        | some generated =>
          (storePreKey store now id publicKey generated,
            ⟨200, "message", "Pre-key stored successfully"⟩)

/-- Both halves of a pre-key, deleted. -/
def PreKeyStore.remove (store : PreKeyStore) (id : String) : PreKeyStore :=
  ⟨store.listed.erase id, store.records.del id⟩

/-- `HGET … private`; an empty value counts as missing. -/
def PreKeyStore.privateKey (store : PreKeyStore) (now : Time) (id : String) : Option Bytes :=
  (store.records.get now id).filter (· ≠ [])

/-- `consume_pre_key` (encryption_service.py:186-211). -/
def consumePreKey (store : PreKeyStore) (now : Time) (id : String) : PreKeyStore × Option Bytes :=
  match store.privateKey now id with
  | none => (store, none)
  | some priv => (store.remove id, some priv)

/-- Redis and the clock. -/
structure KeyState where
  now : Time
  store : PreKeyStore

/-- No keys at time `now`. -/
def KeyState.init (now : Time) : KeyState := ⟨now, .empty⟩

inductive KeyAction
  | generate (drawn : List Drawn)
  | upload (data : Frame) (decoded generated : Option Bytes)
  | consume (id : String)
  | tick (d : ℕ)

def keyStep (publicOf : Bytes → Bytes) (s : KeyState) : KeyAction → Option KeyState
  | .generate drawn =>
    (generatePreKeys publicOf s.store s.now drawn).map fun made => { s with store := made.1 }
  | .upload data decoded generated =>
    some { s with store := (uploadPrekey s.store s.now data decoded generated).1 }
  | .consume id => some { s with store := (consumePreKey s.store s.now id).1 }
  | .tick d => some { s with now := s.now + d }

/-! ## Usable keys -/

/-- A key id is listed if and only if its private record exists, and the two are halves
    of one pair. -/
structure Usable (publicOf : Bytes → Bytes) (store : PreKeyStore) (now : Time) : Prop where
  recorded : ∀ id, (store.listed.lookup id).isSome ↔ (store.records.lookup now id).isSome
  paired : ∀ id pub priv, store.listed.lookup id = some pub →
    store.records.get now id = some priv → pub = publicOf priv

def KeyState.Usable (publicOf : Bytes → Bytes) (s : KeyState) : Prop :=
  Keys.Usable publicOf s.store s.now

/-- An upload that is accepted brings the public half of the pair the server generates;
    time does not outlast the record of a listed key. -/
def Pairs (publicOf : Bytes → Bytes) (s : KeyState) : KeyAction → Prop
  | .upload data decoded generated =>
    (uploadPrekey s.store s.now data decoded generated).2.status = 200 →
      decoded = generated.map publicOf
  | .tick d => ∀ id ∈ s.store.listed.keys, (s.store.records.lookup (s.now + d) id).isSome
  | _ => True

instance (publicOf : Bytes → Bytes) (s : KeyState) :
    (a : KeyAction) → Decidable (Pairs publicOf s a)
  | .upload .. => by unfold Pairs; infer_instance
  | .tick _ => by unfold Pairs; exact List.decidableBAll _ _
  | .generate _ => isTrue trivial
  | .consume _ => isTrue trivial

variable {publicOf : Bytes → Bytes} {store store' : PreKeyStore} {now t : Time}
  {id id' : String} {priv pub : Bytes}

/-! ## One key at a time -/

theorem lookup_put_self (store : PreKeyStore) (now : Time) (id : String) (priv pub : Bytes) :
    (store.put now id priv pub).listed.lookup id = some pub ∧
    (store.put now id priv pub).records.lookup now id =
      some ⟨priv, some (now + seconds PRE_KEY_SECONDS)⟩ := by
  refine ⟨AList.lookup_insert _, ?_⟩
  apply TtlMap.lookup_of_live (TtlMap.hset_expire_self ..)
  exact (Entry.live_of_deadline rfl).mpr (lt_add_of_pos_right now (by decide))

theorem lookup_put_of_ne (store : PreKeyStore) (now : Time) (priv pub : Bytes) (h : id' ≠ id) :
    (store.put now id priv pub).listed.lookup id' = store.listed.lookup id' ∧
      (store.put now id priv pub).records id' = store.records id' :=
  ⟨AList.lookup_insert_ne h, (TtlMap.expire_of_ne h ..).trans (TtlMap.hset_of_ne h ..)⟩

/-- A pre-key that is put into a usable store is usable if and only if its halves belong
    together. -/
theorem usable_put_iff (h : Usable publicOf store now) :
    Usable publicOf (store.put now id priv pub) now ↔ pub = publicOf priv := by
  obtain ⟨hlisted, hrecord⟩ := lookup_put_self store now id priv pub
  constructor
  · intro hput
    apply hput.paired id pub priv hlisted
    unfold TtlMap.get
    rw [hrecord]
    rfl
  · rintro rfl
    constructor
    · intro id'
      by_cases hid : id' = id
      · rw [hid, hlisted, hrecord]
        simp
      · obtain ⟨hlisted', hrecord'⟩ := lookup_put_of_ne store now priv (publicOf priv) hid
        rw [hlisted', TtlMap.lookup, hrecord']
        exact h.recorded id'
    · intro id' pub' priv' hpub hpriv
      by_cases hid : id' = id
      · rw [hid, hlisted] at hpub
        unfold TtlMap.get at hpriv
        rw [hid, hrecord] at hpriv
        cases hpub
        cases hpriv
        rfl
      · obtain ⟨hlisted', hrecord'⟩ := lookup_put_of_ne store now priv (publicOf priv) hid
        rw [hlisted'] at hpub
        unfold TtlMap.get TtlMap.lookup at hpriv
        rw [hrecord'] at hpriv
        exact h.paired id' pub' priv' hpub hpriv

theorem usable_remove (h : Usable publicOf store now) (id : String) :
    Usable publicOf (store.remove id) now := by
  have hself : (store.remove id).listed.lookup id = none ∧
      (store.remove id).records.lookup now id = none :=
    ⟨AList.lookup_erase .., TtlMap.lookup_of_none (TtlMap.del_self ..)⟩
  have hother : ∀ id', id' ≠ id → (store.remove id).listed.lookup id' = store.listed.lookup id' ∧
      (store.remove id).records id' = store.records id' := fun id' hid =>
    ⟨AList.lookup_erase_ne hid, TtlMap.del_of_ne hid⟩
  constructor
  · intro id'
    by_cases hid : id' = id
    · rw [hid, hself.1, hself.2]
      simp
    · rw [(hother id' hid).1, TtlMap.lookup, (hother id' hid).2]
      exact h.recorded id'
  · intro id' pub' priv' hpub hpriv
    by_cases hid : id' = id
    · rw [hid, hself.1] at hpub
      cases hpub
    · rw [(hother id' hid).1] at hpub
      unfold TtlMap.get TtlMap.lookup at hpriv
      rw [(hother id' hid).2] at hpriv
      exact h.paired id' pub' priv' hpub hpriv

/-- While time passes, the keys stay usable as long as no record of theirs expires. -/
theorem usable_tick_iff (h : Usable publicOf store now) (hle : now ≤ t) :
    Usable publicOf store t ↔ ∀ id ∈ store.listed.keys, (store.records.lookup t id).isSome := by
  have hearlier : ∀ id e, store.records.lookup t id = some e →
      store.records.lookup now id = some e := fun id e he => by
    obtain ⟨hkey, hlive⟩ := TtlMap.lookup_eq_some.mp he
    exact TtlMap.lookup_of_live hkey (hlive.mono hle)
  constructor
  · exact fun ht id hid => (ht.recorded id).mp (AList.lookup_isSome.mpr hid)
  · intro hlive
    constructor
    · intro id
      constructor
      · exact fun hid => hlive id (AList.lookup_isSome.mp hid)
      · intro hrecord
        obtain ⟨e, he⟩ := Option.isSome_iff_exists.mp hrecord
        exact (h.recorded id).mpr (Option.isSome_of_mem (hearlier id e he))
    · intro id pub priv hpub hpriv
      obtain ⟨e, he, rfl⟩ := Option.map_eq_some_iff.mp hpriv
      exact h.paired id pub e.val hpub (Option.map_eq_some_iff.mpr ⟨e, hearlier id e he, rfl⟩)

/-! ## The three calls -/

/-- Generated pairs are put under ids that are not listed. -/
theorem usable_generatePreKeys {made : PreKeyStore × List PublicPreKey} (drawn : List Drawn)
    (h : Usable publicOf store now)
    (hmade : generatePreKeys publicOf store now drawn = some made) :
    Usable publicOf made.1 now := by
  induction drawn generalizing store made with
  | nil =>
    cases hmade
    exact h
  | cons d drawn ih =>
    obtain ⟨id, -, hrest⟩ := Option.bind_eq_some_iff.mp hmade
    obtain ⟨rest, hmore, rfl⟩ := Option.map_eq_some_iff.mp hrest
    have husable := ih ((usable_put_iff h).mpr rfl) hmore
    exact husable

/-- An upload is refused and changes nothing, or stores a pair. -/
theorem uploadPrekey_cases (store : PreKeyStore) (now : Time) (data : Frame)
    (decoded generated : Option Bytes) :
    ((uploadPrekey store now data decoded generated).1 = store ∧
        (uploadPrekey store now data decoded generated).2.status ≠ 200) ∨
      ∃ id pub priv, decoded = some pub ∧ generated = some priv ∧
        (uploadPrekey store now data decoded generated).1 = store.put now id priv pub ∧
        (uploadPrekey store now data decoded generated).2.status = 200 := by
  have h400 : 400 ≠ 200 := by decide
  have h500 : 500 ≠ 200 := by decide
  unfold uploadPrekey
  split_ifs
  · exact .inl ⟨rfl, h400⟩
  · cases decoded with
    | none => exact .inl ⟨rfl, h400⟩
    | some pub =>
      cases keyIdText (Json.get data "keyId") with
      | none => exact .inl ⟨rfl, h400⟩
      | some id =>
        cases generated with
        | none => exact .inl ⟨rfl, h500⟩
        | some priv => exact .inr ⟨id, pub, priv, rfl, rfl, rfl, rfl⟩

theorem usable_upload_iff (h : Usable publicOf store now) (data : Frame)
    (decoded generated : Option Bytes) :
    Usable publicOf (uploadPrekey store now data decoded generated).1 now ↔
      ((uploadPrekey store now data decoded generated).2.status = 200 →
        decoded = generated.map publicOf) := by
  obtain ⟨hstore, hstatus⟩ | ⟨id, pub, priv, hpub, hpriv, hstore, hstatus⟩ :=
    uploadPrekey_cases store now data decoded generated
  · rw [hstore]
    exact iff_of_true h fun hok => absurd hok hstatus
  · rw [hstore, hstatus, usable_put_iff h, hpub, hpriv]
    simp

theorem usable_consumePreKey (h : Usable publicOf store now) (id : String) :
    Usable publicOf (consumePreKey store now id).1 now := by
  unfold consumePreKey
  cases store.privateKey now id with
  | none => exact h
  | some priv => exact usable_remove h id

/-! ## Every run -/

/-- What a step makes of a usable store. -/
theorem usable_step_iff {s s' : KeyState} {a : KeyAction} (h : s.Usable publicOf)
    (hs : keyStep publicOf s a = some s') : s'.Usable publicOf ↔ Pairs publicOf s a := by
  cases a with
  | generate drawn =>
    obtain ⟨made, hmade, rfl⟩ := Option.map_eq_some_iff.mp hs
    exact iff_of_true (usable_generatePreKeys drawn h hmade) trivial
  | upload data decoded generated =>
    cases hs
    exact usable_upload_iff h data decoded generated
  | consume id =>
    cases hs
    exact iff_of_true (usable_consumePreKey h id) trivial
  | tick d =>
    cases hs
    exact usable_tick_iff h (by simp)

/-- **Usable keys.** Every listed pre-key has its private half throughout exactly the
    runs whose uploads bring the public half of the generated pair and whose clock
    outlasts no record of a listed key. -/
theorem usable_iff_guarded (publicOf : Bytes → Bytes) (now : Time) (as : List KeyAction) :
    Throughout (keyStep publicOf) (KeyState.Usable publicOf) (KeyState.init now) as ↔
      Guarded (keyStep publicOf) (Pairs publicOf) (KeyState.init now) as := by
  refine throughout_iff_guarded (I := KeyState.Usable publicOf) (fun _ h => h)
    (fun _ _ _ h hg hs => (usable_step_iff h hs).mpr hg) (fun s a h hg => ?_) ?_
  · cases a with
    | generate _ => exact absurd trivial hg
    | consume _ => exact absurd trivial hg
    | upload data decoded generated => exact ⟨_, rfl, mt (usable_step_iff h rfl).mp hg⟩
    | tick d => exact ⟨_, rfl, mt (usable_step_iff h rfl).mp hg⟩
  · constructor
    · intro id
      show ((∅ : AList fun _ : String => Bytes).lookup id).isSome ↔ _
      rw [AList.lookup_empty]
      exact iff_of_false (by decide) Bool.false_ne_true
    · intro id pub priv hpub
      change (∅ : AList fun _ : String => Bytes).lookup id = some pub at hpub
      rw [AList.lookup_empty] at hpub
      cases hpub

/-- A client uploads the public key of its own pair. -/
theorem upload_unpaired :
    ¬ ∀ publicOf now as, Throughout (keyStep publicOf) (KeyState.Usable publicOf)
      (KeyState.init now) as := by
  intro h
  have hafter := h (fun priv => priv) 0
    [.upload [("publicKey", .str "AQ=="), ("keyId", .int 5)] (some [1]) (some [2])] _ []
    (List.append_nil _).symm _ rfl
  have hlisted := lookup_put_self .empty 0 "5" [2] [1]
  have hsame := hafter.paired "5" [1] [2] hlisted.1 (congrArg (Option.map Entry.val) hlisted.2)
  exact absurd hsame (by decide)

end IronLink.Keys
