import IronLink.Lib.Isolation
import IronLink.Media.Routes

/-!
# Uploads of different users

A set of received chunks lies under `upload:chunks:{id}`, which is also the state key of
the upload id `chunks:{id}`. A user who asks for that id makes Redis refuse the `GET`,
and is answered 500 where an unknown id is answered 404.

Results:
* `exec_outside`, `exec_inside`: what a command reaches.
* `handle_keeps`: a request reaches nothing but the uploads of its user, once their
  state has been read.
* `meetsSet_iff`: a `GET` meets a set of chunks when the id asked for is `chunks:{id}`, and
  chunks of `id` have been received.
* `sameAnswers_iff`: in two runs with the same requests of a user, the user is answered
  alike exactly when the same `GET`s of the user meet a set of chunks.
* `foreign_chunks_tell`: an upload of another user is told from an unknown one.
-/

namespace IronLink.Media.Routes

open Lib Auth

/-! ## Keys and names -/

theorem stateKey_injective : Function.Injective stateKey := fun _ _ h =>
  String.append_right_inj _ |>.mp h

theorem chunksKey_injective : Function.Injective chunksKey := fun _ _ h =>
  String.append_right_inj _ |>.mp h

theorem chunksKey_eq (uploadId : String) :
    chunksKey uploadId = stateKey ("chunks:" ++ uploadId) := by
  unfold chunksKey stateKey
  rw [← String.append_assoc]
  rfl

theorem UrlSafe.ne {text : String} (h : UrlSafe text) {c : Char} (hc : c.isAlphanum = false)
    (hdash : c ≠ '-') (hline : c ≠ '_') : c ∉ text.toList := by
  intro hmem
  obtain halpha | hdash' | hline' := h c hmem
  · rw [hc] at halpha
    cases halpha
  · exact hdash hdash'
  · exact hline hline'

theorem UrlSafe.noSlash {text : String} (h : UrlSafe text) : '/' ∉ text.toList :=
  h.ne (by decide) (by decide) (by decide)

/-- An issued id is not of the form `chunks:{id}`. -/
theorem UrlSafe.stateKey_ne {text : String} (h : UrlSafe text) (uploadId : String) :
    stateKey text ≠ chunksKey uploadId := by
  intro heq
  rw [chunksKey_eq] at heq
  have hcolon : ':' ∈ text.toList := by
    rw [stateKey_injective heq, String.toList_append]
    exact List.mem_append_left _ (by decide)
  exact h.ne (by decide) (by decide) (by decide) hcolon

/-- Up to the first slash. -/
theorem takeWhile_slash {front : List Char} (h : '/' ∉ front) (back : List Char) :
    (front ++ '/' :: back).takeWhile (· ≠ '/') = front := by
  rw [List.takeWhile_append_of_pos fun c hc => by
    rw [decide_eq_true_eq]
    rintro rfl
    exact h hc]
  simp

theorem stagingKey_toList (uploadId : String) (i : ℕ) :
    (stagingKey uploadId i).toList =
      "staging/".toList ++ (uploadId.toList ++ '/' :: (toString i).toList) := by
  unfold stagingKey
  rw [String.toList_append, String.toList_append, String.toList_append]
  simp

theorem stagingKey_uploadId {t t' : String} (ht : UrlSafe t) (ht' : UrlSafe t') {i j : ℕ}
    (h : stagingKey t i = stagingKey t' j) : t = t' := by
  have hlists := congrArg String.toList h
  rw [stagingKey_toList, stagingKey_toList] at hlists
  have hfront := congrArg (List.takeWhile (· ≠ '/')) (List.append_cancel_left hlists)
  rw [takeWhile_slash ht.noSlash, takeWhile_slash ht'.noSlash] at hfront
  exact String.toList_injective hfront

theorem slash_mem_stagingKey (uploadId : String) (i : ℕ) :
    '/' ∈ (stagingKey uploadId i).toList := by
  rw [stagingKey_toList]
  exact List.mem_append_left _ (by decide)

/-! ## What a command reaches -/

/-- A place where the backend keeps something. -/
inductive Cell
  | entry (key : String)
  | object (name : String)

def Backend.SameAt (b b' : Backend) : Cell → Prop
  | .entry key => b.redis key = b'.redis key
  | .object name => b.bucket name = b'.bucket name

def Command.Reaches : Command → Cell → Prop
  | .get key, x => x = .entry key
  | .set key _ _, x => x = .entry key
  | .sadd key _, x => x = .entry key
  | .expire key _, x => x = .entry key
  | .smembers key, x => x = .entry key
  | .del keys, x => ∃ key ∈ keys, x = .entry key
  | .putObject name _, x => x = .object name
  | .getObject name, x => x = .object name
  | .removeObject name, x => x = .object name

variable {b b' : Backend} {command : Command} {now : Time}

theorem foldl_del (m : TtlMap Time String RedisValue) (keys : List String) (key : String) :
    keys.foldl TtlMap.del m key = if key ∈ keys then none else m key := by
  induction keys generalizing m with
  | nil => simp
  | cons k keys ih =>
    rw [List.foldl_cons, ih]
    by_cases hk : key = k
    · subst hk
      simp
    · rw [TtlMap.del_of_ne hk]
      simp [hk]

theorem lookup_congr {m m' : TtlMap Time String RedisValue} {key : String}
    (h : m key = m' key) (now : Time) : m.lookup now key = m'.lookup now key := by
  unfold TtlMap.lookup
  rw [h]

theorem get_congr {m m' : TtlMap Time String RedisValue} {key : String}
    (h : m key = m' key) (now : Time) : m.get now key = m'.get now key :=
  congrArg (Option.map Entry.val) (lookup_congr h now)

/-- A command changes nothing that it does not reach. -/
theorem exec_outside (now : Time) (b : Backend) {command : Command} {x : Cell}
    (h : ¬ command.Reaches x) : (exec now b command).1.SameAt b x := by
  cases command with
  | get key => cases x <;> rfl
  | smembers key => cases x <;> rfl
  | getObject name => cases x <;> rfl
  | set key value ex =>
    cases x with
    | entry key' => exact TtlMap.set_of_ne (fun hkey => h (congrArg _ hkey)) ..
    | object name => rfl
  | expire key ttl =>
    cases x with
    | entry key' => exact TtlMap.expire_of_ne (fun hkey => h (congrArg _ hkey)) ..
    | object name => rfl
  | sadd key index =>
    cases x with
    | entry key' =>
      show (b.saddTo key _).1.redis key' = b.redis key'
      cases saddEntry index (b.redis.lookup now key) with
      | ok entry => exact TtlMap.set_of_ne (fun hkey => h (congrArg _ hkey)) ..
      | wrongType => rfl
    | object name =>
      show (b.saddTo key _).1.bucket name = b.bucket name
      cases saddEntry index (b.redis.lookup now key) <;> rfl
  | del keys =>
    cases x with
    | entry key =>
      show keys.foldl TtlMap.del b.redis key = b.redis key
      rw [foldl_del, if_neg fun hkey => h ⟨key, hkey, rfl⟩]
    | object name => rfl
  | putObject name object =>
    cases x with
    | entry key => rfl
    | object name' => exact Function.update_of_ne (fun hname => h (congrArg _ hname)) ..
  | removeObject name =>
    cases x with
    | entry key => rfl
    | object name' => exact Function.update_of_ne (fun hname => h (congrArg _ hname)) ..

/-- The reply, and what a command leaves where it reaches, depend on what is there. -/
theorem exec_inside (now : Time) (h : ∀ x, command.Reaches x → b.SameAt b' x) :
    (exec now b command).2 = (exec now b' command).2 ∧
      ∀ x, command.Reaches x → (exec now b command).1.SameAt (exec now b' command).1 x := by
  cases command with
  | get key =>
    have hkey : b.redis key = b'.redis key := h (.entry key) rfl
    exact ⟨congrArg getReply (get_congr hkey now), h⟩
  | smembers key =>
    have hkey : b.redis key = b'.redis key := h (.entry key) rfl
    exact ⟨congrArg smembersReply (get_congr hkey now), h⟩
  | getObject name => exact ⟨h (.object name) rfl, h⟩
  | set key value ex =>
    refine ⟨rfl, ?_⟩
    rintro x rfl
    exact (TtlMap.set_self ..).trans (TtlMap.set_self ..).symm
  | expire key ttl =>
    refine ⟨rfl, ?_⟩
    rintro x rfl
    have hkey : b.redis key = b'.redis key := h (.entry key) rfl
    show b.redis.expire now key _ key = b'.redis.expire now key _ key
    rw [TtlMap.expire_self, TtlMap.expire_self, lookup_congr hkey, hkey]
  | sadd key index =>
    have hkey : b.redis key = b'.redis key := h (.entry key) rfl
    show (b.saddTo key (saddEntry index (b.redis.lookup now key))).2 =
        (b'.saddTo key (saddEntry index (b'.redis.lookup now key))).2 ∧
      ∀ x, x = .entry key →
        (b.saddTo key (saddEntry index (b.redis.lookup now key))).1.SameAt
          (b'.saddTo key (saddEntry index (b'.redis.lookup now key))).1 x
    rw [lookup_congr hkey]
    cases saddEntry index (b'.redis.lookup now key) with
    | ok entry =>
      refine ⟨rfl, ?_⟩
      rintro x rfl
      exact (TtlMap.set_self ..).trans (TtlMap.set_self ..).symm
    | wrongType => exact ⟨rfl, h⟩
  | del keys =>
    refine ⟨rfl, ?_⟩
    rintro x ⟨key, hkey, rfl⟩
    show keys.foldl TtlMap.del b.redis key = keys.foldl TtlMap.del b'.redis key
    rw [foldl_del, foldl_del, if_pos hkey, if_pos hkey]
  | putObject name object =>
    refine ⟨rfl, ?_⟩
    rintro x rfl
    show Function.update b.bucket name _ name = Function.update b'.bucket name _ name
    rw [Function.update_self, Function.update_self]
  | removeObject name =>
    refine ⟨rfl, ?_⟩
    rintro x rfl
    show Function.update b.bucket name _ name = Function.update b'.bucket name _ name
    rw [Function.update_self, Function.update_self]

/-! ## The uploads of a user -/

/-- The cells of an upload. -/
def BelongsTo (uploadId : String) (x : Cell) : Prop :=
  x = .entry (stateKey uploadId) ∨ x = .entry (chunksKey uploadId) ∨
    ∃ i, x = .object (stagingKey uploadId i)

/-- Issued ids share no cell. -/
theorem BelongsTo.unique {t t' : String} {x : Cell} (ht : UrlSafe t) (ht' : UrlSafe t')
    (h : BelongsTo t x) (h' : BelongsTo t' x) : t = t' := by
  obtain rfl | rfl | ⟨i, rfl⟩ := h
  · obtain heq | heq | ⟨_, heq⟩ := h'
    · exact stateKey_injective (Cell.entry.inj heq)
    · exact absurd (Cell.entry.inj heq) (ht.stateKey_ne _)
    · cases heq
  · obtain heq | heq | ⟨_, heq⟩ := h'
    · exact absurd (Cell.entry.inj heq).symm (ht'.stateKey_ne _)
    · exact chunksKey_injective (Cell.entry.inj heq)
    · cases heq
  · obtain heq | heq | ⟨j, heq⟩ := h'
    · cases heq
    · cases heq
    · exact stagingKey_uploadId ht ht' (Cell.object.inj heq)

section Contracts

variable (T : List String) (u : UUID)

/-- The id is one that may be issued to `v`: those in `T` are issued to `u`. -/
def IssuedTo (v : UUID) (uploadId : String) : Prop :=
  UrlSafe uploadId ∧ (uploadId ∈ T ↔ v = u)

/-- What a request of `v` may do. -/
def May (v : UUID) : Command → Prop
  | .get _ => True
  | .set key value _ => ∃ t, IssuedTo T u v t ∧ key = stateKey t ∧ value.userId = v.str
  | .sadd key _ => ∃ t, IssuedTo T u v t ∧ key = chunksKey t
  | .expire key _ => ∃ t, IssuedTo T u v t ∧ key = chunksKey t
  | .smembers key => ∃ t, IssuedTo T u v t ∧ key = chunksKey t
  | .del keys => ∃ t, IssuedTo T u v t ∧ keys = [stateKey t, chunksKey t]
  | .putObject name _ =>
    '/' ∉ name.toList ∨ ∃ t, IssuedTo T u v t ∧ ∃ i, name = stagingKey t i
  | .getObject name => ∃ t, IssuedTo T u v t ∧ ∃ i, name = stagingKey t i
  | .removeObject name => ∃ t, IssuedTo T u v t ∧ ∃ i, name = stagingKey t i

/-- The state that `GET` finds is that of an issued id, and of its owner. -/
def ExpectsState (key : String) : RedisReply (Option UploadState) → Prop
  | .ok (some state) => ∃ t, UrlSafe t ∧ key = stateKey t ∧ (t ∈ T ↔ state.userId = u.str)
  | _ => True

def Expects : (command : Command) → command.Reply → Prop
  | .get key => ExpectsState T u key
  | _ => fun _ => True

/-- How `u` is answered who asks for an upload of no one or of another user. -/
def refusal : RedisReply (Option UploadState) → HttpError
  | .ok _ => notFound
  | .wrongType => internalServerError

/-- The replies to `u` that end a request. -/
def Refuses (v : UUID) : (command : Command) → command.Reply → Option HttpError
  | .get key => fun reply =>
    if v = u ∧ ∀ t ∈ T, key ≠ stateKey t then some (refusal reply) else none
  | _ => fun _ => none

def contract (v : UUID) : Contract Command Command.Reply HttpError :=
  ⟨May T u v, Expects T u, Refuses T u v⟩

/-- What a key may hold. -/
def GoodValue (key : String) : RedisValue → Prop
  | .string state => ∃ t, UrlSafe t ∧ key = stateKey t ∧ (t ∈ T ↔ state.userId = u.str)
  | .set _ => ∃ t, key = chunksKey t

def GoodKeys (b : Backend) : Prop := ∀ key entry, b.redis key = some entry →
  GoodValue T u key entry.val

/-- The two backends agree on the uploads of `u`. -/
def SameUploads (b b' : Backend) : Prop := ∀ t ∈ T, ∀ x, BelongsTo t x → b.SameAt b' x

end Contracts

def isSet : Option RedisValue → Bool
  | some (.set _) => true
  | _ => false

/-- The command is a `GET` that meets a set of chunks. -/
def meetsSet (now : Time) (b : Backend) : Command → Bool
  | .get key => isSet (b.redis.get now key)
  | _ => false

variable {T : List String} {u v : UUID}

/-- Besides `GET` and the storing of media, a request stays within one upload of its user. -/
theorem May.cases (h : May T u v command) : (∃ key, command = .get key) ∨
    (∃ name object, command = .putObject name object ∧ '/' ∉ name.toList) ∨
      ∃ t, IssuedTo T u v t ∧ ∀ x, command.Reaches x → BelongsTo t x := by
  cases command with
  | get key => exact .inl ⟨key, rfl⟩
  | set key value ex =>
    obtain ⟨t, ht, rfl, -⟩ := h
    exact .inr (.inr ⟨t, ht, fun x hx => .inl hx⟩)
  | sadd key index =>
    obtain ⟨t, ht, rfl⟩ := h
    exact .inr (.inr ⟨t, ht, fun x hx => .inr (.inl hx)⟩)
  | expire key ttl =>
    obtain ⟨t, ht, rfl⟩ := h
    exact .inr (.inr ⟨t, ht, fun x hx => .inr (.inl hx)⟩)
  | smembers key =>
    obtain ⟨t, ht, rfl⟩ := h
    exact .inr (.inr ⟨t, ht, fun x hx => .inr (.inl hx)⟩)
  | del keys =>
    obtain ⟨t, ht, rfl⟩ := h
    refine .inr (.inr ⟨t, ht, ?_⟩)
    rintro x ⟨key, hkey, rfl⟩
    obtain rfl | hkey := List.mem_cons.mp hkey
    · exact .inl rfl
    · rw [List.mem_singleton.mp hkey]
      exact .inr (.inl rfl)
  | putObject name object =>
    obtain hslash | ⟨t, ht, i, rfl⟩ := h
    · exact .inr (.inl ⟨name, object, rfl, hslash⟩)
    · exact .inr (.inr ⟨t, ht, fun x hx => .inr (.inr ⟨i, hx⟩)⟩)
  | getObject name =>
    obtain ⟨t, ht, i, rfl⟩ := h
    exact .inr (.inr ⟨t, ht, fun x hx => .inr (.inr ⟨i, hx⟩)⟩)
  | removeObject name =>
    obtain ⟨t, ht, i, rfl⟩ := h
    exact .inr (.inr ⟨t, ht, fun x hx => .inr (.inr ⟨i, hx⟩)⟩)

/-- Media are no part of an upload. -/
theorem not_belongsTo_media {name : String} (h : '/' ∉ name.toList) (t : String) :
    ¬ BelongsTo t (.object name) := by
  rintro (heq | heq | ⟨i, heq⟩)
  · cases heq
  · cases heq
  · rw [Cell.object.inj heq] at h
    exact h (slash_mem_stagingKey t i)

/-! ## The backend -/

theorem expected_exec (now : Time) (hb : GoodKeys T u b) (command : Command) :
    Expects T u command (exec now b command).2 := by
  cases command with
  | get key =>
    show ExpectsState T u key (getReply (b.redis.get now key))
    cases hget : b.redis.get now key with
    | none => trivial
    | some value =>
      obtain ⟨entry, hentry, -, rfl⟩ := TtlMap.get_eq_some.mp hget
      have hgood := hb key entry hentry
      cases hval : entry.val with
      | string state =>
        rw [hval] at hgood
        exact hgood
      | set indices => trivial
  | _ => trivial

theorem GoodKeys.exec (now : Time) (hb : GoodKeys T u b) (h : May T u v command) :
    GoodKeys T u (exec now b command).1 := by
  -- an entry that was there, or a new one that is good
  have hset : ∀ {key value deadline}, GoodValue T u key value →
      GoodKeys T u { b with redis := b.redis.set key value deadline } := by
    intro key value deadline hvalue key' entry hentry
    by_cases hkey : key' = key
    · subst hkey
      obtain rfl := Option.some.inj ((TtlMap.set_self ..).symm.trans hentry)
      exact hvalue
    · exact hb key' entry ((TtlMap.set_of_ne hkey ..).symm.trans hentry)
  cases command with
  | set key value ex =>
    obtain ⟨t, ht, rfl, huser⟩ := h
    refine hset ⟨t, ht.1, rfl, ht.2.trans ?_⟩
    rw [huser]
    exact ⟨fun hv => congrArg UUID.str hv, fun hstr => UUID.str_injective hstr⟩
  | sadd key index =>
    obtain ⟨t, -, rfl⟩ := h
    show GoodKeys T u (b.saddTo (chunksKey t) (saddEntry index (b.redis.lookup now _))).1
    cases hlookup : b.redis.lookup now (chunksKey t) with
    | none => exact hset ⟨t, rfl⟩
    | some entry =>
      obtain ⟨value, deadline⟩ := entry
      cases value with
      | string state => exact hb
      | set indices => exact hset ⟨t, rfl⟩
  | expire key ttl =>
    show GoodKeys T u { b with redis := b.redis.expire now key (now + ttl) }
    unfold TtlMap.expire
    cases hlookup : b.redis.lookup now key with
    | none => exact hb
    | some entry => exact hset (hb key entry (TtlMap.lookup_eq_some.mp hlookup).1)
  | del keys =>
    intro key entry hentry
    have hfold : keys.foldl TtlMap.del b.redis key = some entry := hentry
    rw [foldl_del] at hfold
    split_ifs at hfold
    exact hb key entry hfold
  | _ => exact hb

theorem Backend.SameAt.symm {x : Cell} (h : b.SameAt b' x) : b'.SameAt b x := by
  cases x with
  | entry key => exact Eq.symm h
  | object name => exact Eq.symm h

theorem Backend.SameAt.trans {b'' : Backend} {x : Cell} (h : b.SameAt b' x) (h' : b'.SameAt b'' x) :
    b.SameAt b'' x := by
  cases x with
  | entry key => exact Eq.trans h h'
  | object name => exact Eq.trans h h'

theorem Backend.SameAt.refl (b : Backend) (x : Cell) : b.SameAt b x := by
  cases x <;> rfl

/-- A `GET` meets a set when the id asked for is `chunks:{id}`, and chunks of `id` are
    there. -/
theorem meetsSet_iff (hb : GoodKeys T u b) (now : Time) (uploadId : String) :
    meetsSet now b (.get (stateKey uploadId)) = true ↔
      ∃ t, uploadId = "chunks:" ++ t ∧ (b.redis.get now (chunksKey t)).isSome = true := by
  show isSet (b.redis.get now (stateKey uploadId)) = true ↔ _
  constructor
  · intro h
    cases hget : b.redis.get now (stateKey uploadId) with
    | none =>
      rw [hget] at h
      cases h
    | some value =>
      obtain ⟨entry, hentry, -, rfl⟩ := TtlMap.get_eq_some.mp hget
      have hgood := hb _ entry hentry
      cases hval : entry.val with
      | string state =>
        rw [hget, hval] at h
        cases h
      | set indices =>
        rw [hval] at hgood
        obtain ⟨t, ht⟩ := hgood
        refine ⟨t, stateKey_injective (ht.trans (chunksKey_eq t)), ?_⟩
        rw [← ht, hget]
        rfl
  · rintro ⟨t, rfl, hsome⟩
    rw [← chunksKey_eq]
    obtain ⟨value, hget⟩ := Option.isSome_iff_exists.mp hsome
    obtain ⟨entry, hentry, -, rfl⟩ := TtlMap.get_eq_some.mp hget
    have hgood := hb _ entry hentry
    rw [hget]
    cases hval : entry.val with
    | string state =>
      rw [hval] at hgood
      obtain ⟨t', ht', hkey, -⟩ := hgood
      exact absurd hkey.symm (ht'.stateKey_ne t)
    | set indices => rfl

/-- Who is not `u` changes no upload of `u`. -/
theorem sameUploads_foreign (now : Time) (hT : ∀ t ∈ T, UrlSafe t) (hne : v ≠ u)
    (h : May T u v command) : SameUploads T b (exec now b command).1 := by
  intro t ht x hx
  obtain ⟨key, rfl⟩ | ⟨name, object, rfl, hslash⟩ | ⟨t', ht', hreach⟩ := h.cases
  · exact .refl b x
  · refine (exec_outside now b ?_).symm
    rintro rfl
    exact not_belongsTo_media hslash t hx
  · refine (exec_outside now b fun hin => ?_).symm
    obtain rfl := hx.unique (hT t ht) ht'.1 (hreach x hin)
    exact hne (ht'.2.mp ht)

/-- What `u` does has the same effect on two backends with the same uploads of `u`. -/
theorem sameUploads_own (now : Time) (hsame : SameUploads T b b') (h : May T u u command) :
    SameUploads T (exec now b command).1 (exec now b' command).1 := by
  intro t ht x hx
  obtain ⟨key, rfl⟩ | ⟨name, object, rfl, hslash⟩ | ⟨t', ht', hreach⟩ := h.cases
  · exact hsame t ht x hx
  · have hout : ¬ (Command.putObject name object).Reaches x := by
      rintro rfl
      exact not_belongsTo_media hslash t hx
    exact ((exec_outside now b hout).trans (hsame t ht x hx)).trans (exec_outside now b' hout).symm
  · by_cases hin : command.Reaches x
    · exact (exec_inside now fun y hy => hsame t' (ht'.2.mpr rfl) y (hreach y hy)).2 x hin
    · exact ((exec_outside now b hin).trans (hsame t ht x hx)).trans (exec_outside now b' hin).symm

theorem refusal_get (now : Time) (b : Backend) (key : String) :
    refusal (getReply (b.redis.get now key)) =
      if meetsSet now b (.get key) then internalServerError else notFound := by
  show refusal (getReply (b.redis.get now key)) = if isSet (b.redis.get now key) then _ else _
  cases b.redis.get now key with
  | none => rfl
  | some value => cases value <;> rfl

/-- The replies to `u` agree, but for a `GET` outside the uploads of `u`, which is refused. -/
theorem reply_own (now : Time) (hsame : SameUploads T b b') (h : May T u u command) :
    (exec now b command).2 = (exec now b' command).2 ∧
        meetsSet now b command = meetsSet now b' command ∨
      ∃ e e', Refuses T u u command (exec now b command).2 = some e ∧
        Refuses T u u command (exec now b' command).2 = some e' ∧
          (e = e' ↔ meetsSet now b command = meetsSet now b' command) := by
  obtain ⟨key, rfl⟩ | ⟨name, object, rfl, hslash⟩ | ⟨t', ht', hreach⟩ := h.cases
  · by_cases hmine : ∃ t ∈ T, key = stateKey t
    · obtain ⟨t, ht, rfl⟩ := hmine
      have hentry : b.redis (stateKey t) = b'.redis (stateKey t) := hsame t ht _ (.inl rfl)
      exact .inl ⟨congrArg getReply (get_congr hentry now), congrArg isSet (get_congr hentry now)⟩
    · have hforeign : u = u ∧ ∀ t ∈ T, key ≠ stateKey t :=
        ⟨rfl, fun t ht heq => hmine ⟨t, ht, heq⟩⟩
      refine .inr ⟨_, _, if_pos hforeign, if_pos hforeign, ?_⟩
      show refusal (getReply _) = refusal (getReply _) ↔ _
      have hne : internalServerError ≠ notFound := by decide
      rw [refusal_get, refusal_get]
      cases meetsSet now b (.get key) <;> cases meetsSet now b' (.get key) <;>
        simp [hne, hne.symm]
  · exact .inl ⟨rfl, rfl⟩
  · have hinside := exec_inside now fun y hy => hsame t' (ht'.2.mpr rfl) y (hreach y hy)
    refine .inl ⟨hinside.1, ?_⟩
    cases command with
    | get key =>
      have hentry : b.redis key = b'.redis key :=
        hsame t' (ht'.2.mpr rfl) (.entry key) (hreach _ rfl)
      exact congrArg isSet (get_congr hentry now)
    | _ => rfl

theorem isolates (hT : ∀ t ∈ T, UrlSafe t) :
    Isolates exec (contract T u) u (GoodKeys T u) (SameUploads T) meetsSet where
  symm h t ht x hx := (h t ht x hx).symm
  trans h h' t ht x hx := (h t ht x hx).trans (h' t ht x hx)
  expected now hb _ := expected_exec now hb _
  keeps now hb hmay := hb.exec now hmay
  foreign now _ hne hmay := sameUploads_foreign now hT hne hmay
  own now _ _ hsame hmay := sameUploads_own now hsame hmay
  reply now _ _ hsame hmay := reply_own now hsame hmay

/-! ## The routes -/

/-- A command other than `GET`, and what follows. -/
theorem keeps_perform_bind {β : Type} {post : β → Prop} {command : Command}
    {f : command.Reply → Route β} (hmay : May T u v command)
    (hrefuses : ∀ reply, Refuses T u v command reply = none)
    (hf : ∀ reply, (f reply).Keeps (contract T u v) post) :
    (perform command >>= f).Keeps (contract T u v) post := by
  refine Prog.keeps_perform_bind ?_ ?_ fun reply _ => hf reply
  · exact hmay
  · exact hrefuses

theorem keeps_orRaise {α : Type} (reply : RedisReply α) :
    (orRaise reply).Keeps (contract T u v) fun _ => True := by
  cases reply <;> trivial

theorem of_refuses_get {key : String} {reply : RedisReply (Option UploadState)} {e : HttpError}
    (h : Refuses T u v (.get key) reply = some e) :
    v = u ∧ (∀ t ∈ T, key ≠ stateKey t) ∧ e = refusal reply := by
  have hif : (if v = u ∧ ∀ t ∈ T, key ≠ stateKey t then some (refusal reply) else none) =
    some e := h
  split_ifs at hif with hforeign
  exact ⟨hforeign.1, hforeign.2, (Option.some.inj hif).symm⟩

/-- What `loadState` makes of the reply. -/
def loaded (userId : String) : RedisReply (Option UploadState) → Route UploadState
  | .wrongType => .raise internalServerError
  | .ok none => .raise notFound
  | .ok (some state) => if state.userId ≠ userId then .raise notFound else .ret state

theorem loaded_keeps {userId uploadId : String} {state : UploadState}
    (h : state.userId = userId → IssuedTo T u v uploadId) :
    (loaded userId (.ok (some state))).Keeps (contract T u v) fun _ => IssuedTo T u v uploadId := by
  show Prog.Keeps _ _ (if state.userId ≠ userId then .raise notFound else .ret state)
  by_cases hsame : state.userId = userId
  · rw [if_neg (not_not.mpr hsame)]
    exact h hsame
  · rw [if_pos hsame]
    trivial

theorem loadState_eq (uploadId userId : String) :
    loadState uploadId userId = .call (.get (stateKey uploadId)) (loaded userId) := by
  unfold loadState
  refine congrArg (Prog.call _) (funext fun reply => ?_)
  cases reply with
  | wrongType => rfl
  | ok found => cases found <;> rfl

/-- Whoever finds an upload is the one to whom its id was issued. -/
theorem loadState_keeps (uploadId : String) {userId : String} (huser : userId = v.str) :
    (loadState uploadId userId).Keeps (contract T u v) fun _ => IssuedTo T u v uploadId := by
  rw [loadState_eq]
  refine ⟨trivial, fun reply hreply => ?_⟩
  cases reply with
  | wrongType =>
    refine ⟨fun e he => ?_, trivial⟩
    rw [(of_refuses_get he).2.2]
    rfl
  | ok found =>
    cases found with
    | none =>
      refine ⟨fun e he => ?_, trivial⟩
      rw [(of_refuses_get he).2.2]
      rfl
    | some state =>
      obtain ⟨t, ht, hkey, howner⟩ := hreply
      obtain rfl := stateKey_injective hkey
      refine ⟨fun e he => ?_, loaded_keeps fun hsame => ⟨ht, howner.trans ?_⟩⟩
      · obtain ⟨rfl, hforeign, rfl⟩ := of_refuses_get he
        have hne : state.userId ≠ userId := fun heq =>
          hforeign uploadId (howner.mpr (heq.trans huser)) rfl
        exact if_pos hne
      · rw [hsame, huser]
        exact ⟨fun hstr => UUID.str_injective hstr, fun hv => congrArg UUID.str hv⟩

theorem uploadInit_keeps (uploadId : Drawn) (hissued : uploadId.text ∈ T ↔ v = u)
    (body : UploadInitIn) :
    (uploadInit v uploadId body).Keeps (contract T u v) fun _ => True := by
  unfold uploadInit
  split_ifs
  · trivial
  · exact keeps_perform_bind ⟨_, ⟨uploadId.urlSafe, hissued⟩, rfl, rfl⟩ (fun _ => rfl)
      fun _ => trivial

theorem uploadChunk_keeps (uploadId : String) (chunkIndex : ℤ) (data : Bytes) :
    (uploadChunk v uploadId chunkIndex data).Keeps (contract T u v) fun _ => True := by
  unfold uploadChunk
  refine (loadState_keeps uploadId rfl).bind fun state hissued => ?_
  split_ifs
  · trivial
  · trivial
  · dsimp only
    refine keeps_perform_bind (.inr ⟨_, hissued, _, rfl⟩) (fun _ => rfl) fun _ => ?_
    refine keeps_perform_bind ⟨_, hissued, rfl⟩ (fun _ => rfl) fun reply => ?_
    refine (keeps_orRaise reply).bind fun _ _ => ?_
    exact keeps_perform_bind ⟨_, hissued, rfl⟩ (fun _ => rfl) fun _ => trivial
  · trivial

theorem uploadStatus_keeps (uploadId : String) :
    (uploadStatus v uploadId).Keeps (contract T u v) fun _ => True := by
  unfold uploadStatus
  refine (loadState_keeps uploadId rfl).bind fun state hissued => ?_
  refine keeps_perform_bind ⟨_, hissued, rfl⟩ (fun _ => rfl) fun reply => ?_
  exact (keeps_orRaise reply).bind fun _ _ => trivial

theorem readParts_keeps {uploadId : String} (hissued : IssuedTo T u v uploadId)
    (indices : List ℕ) : (readParts uploadId indices).Keeps (contract T u v) fun _ => True := by
  induction indices with
  | nil => trivial
  | cons i indices ih =>
    unfold readParts
    refine keeps_perform_bind ⟨_, hissued, _, rfl⟩ (fun _ => rfl) fun found => ?_
    cases found with
    | none => trivial
    | some object => exact ih.bind fun _ _ => trivial

theorem assembleStaging_keeps {uploadId : String} (hissued : IssuedTo T u v uploadId)
    (totalChunks : ℕ) :
    (assembleStaging uploadId totalChunks).Keeps (contract T u v) fun _ => True :=
  (readParts_keeps hissued _).bind fun _ _ => trivial

theorem deleteParts_keeps {uploadId : String} (hissued : IssuedTo T u v uploadId)
    (indices : List ℕ) : (deleteParts uploadId indices).Keeps (contract T u v) fun _ => True := by
  induction indices with
  | nil => trivial
  | cons i indices ih =>
    unfold deleteParts
    exact keeps_perform_bind ⟨_, hissued, _, rfl⟩ (fun _ => rfl) fun _ => ih

/-- The keys of media have no slash. -/
theorem noSlash_extFor (mime : String) : '/' ∉ (extFor mime).toList := by
  have hall : ∀ type ∈ ALLOWED_MIME_TYPES, '/' ∉ type.2.toList := by decide
  unfold extFor
  cases hlookup : ALLOWED_MIME_TYPES.lookup mime with
  | none => decide
  | some ext =>
    obtain ⟨front, back, hlist, -⟩ := List.lookup_eq_some_iff.mp hlookup
    refine hall (mime, ext) ?_
    rw [hlist]
    exact List.mem_append_right _ List.mem_cons_self

variable {Image : Type} (pillow : Option (Pillow Image))

theorem finishUpload_keeps {uploadId : String} (hissued : IssuedTo T u v uploadId)
    (state : UploadState) (assembled : Bytes) (thumbHex mediaHex : Drawn) :
    (finishUpload pillow uploadId state assembled thumbHex mediaHex).Keeps (contract T u v)
      fun _ => True := by
  unfold finishUpload
  have hmedia : '/' ∉ (mediaHex.text ++ extFor state.mimeType).toList := by
    rw [String.toList_append]
    exact fun hmem => (List.mem_append.mp hmem).elim mediaHex.urlSafe.noSlash
      (noSlash_extFor state.mimeType)
  have hthumb : '/' ∉ (thumbnailKey thumbHex.text).toList := by
    unfold thumbnailKey
    rw [String.toList_append]
    exact fun hmem => (List.mem_append.mp hmem).elim thumbHex.urlSafe.noSlash (by decide)
  have hrest : ∀ (data : Bytes) (thumb : Option Bytes),
      (do
        perform (.putObject (mediaHex.text ++ extFor state.mimeType) ⟨data, state.mimeType⟩)
        deleteStaging uploadId state.totalChunks
        perform (.del [stateKey uploadId, chunksKey uploadId])
        return Response.complete ⟨mediaHex.text ++ extFor state.mimeType, state.mimeType,
          data.length, thumb.map fun _ => thumbnailKey thumbHex.text⟩ : Route Response).Keeps
        (contract T u v) fun _ => True := by
    intro data thumb
    refine keeps_perform_bind (.inl hmedia) (fun _ => rfl) fun _ => ?_
    refine (deleteParts_keeps hissued _).bind fun _ _ => ?_
    exact keeps_perform_bind ⟨_, hissued, rfl⟩ (fun _ => rfl) fun _ => trivial
  cases processed pillow state.mimeType assembled with
  | none => trivial
  | some result =>
    obtain ⟨data, thumb⟩ := result
    cases thumb with
    | none => exact hrest data none
    | some thumb =>
      exact keeps_perform_bind (.inl hthumb) (fun _ => rfl) fun _ => hrest data (some thumb)

theorem uploadComplete_keeps (uploadId : String) (thumbHex mediaHex : Drawn) :
    (uploadComplete pillow v uploadId thumbHex mediaHex).Keeps (contract T u v)
      fun _ => True := by
  unfold uploadComplete
  refine (loadState_keeps uploadId rfl).bind fun state hissued => ?_
  refine keeps_perform_bind ⟨_, hissued, rfl⟩ (fun _ => rfl) fun reply => ?_
  refine (keeps_orRaise reply).bind fun received _ => ?_
  dsimp only
  split_ifs
  · trivial
  · refine (assembleStaging_keeps hissued _).bind fun assembled _ => ?_
    split_ifs
    · exact (deleteParts_keeps hissued _).bind fun _ _ => trivial
    · exact finishUpload_keeps pillow hissued state assembled thumbHex mediaHex

/-- The id that a request draws. -/
def Request.drawn : Request → Option String
  | .init uploadId _ => some uploadId.text
  | _ => none

/-- A request reaches nothing but what its user may. -/
theorem handle_keeps (request : Request)
    (hissued : ∀ uploadId ∈ request.drawn, (uploadId ∈ T ↔ v = u)) :
    (handle pillow v request).Keeps (contract T u v) fun _ => True := by
  cases request with
  | init uploadId body => exact uploadInit_keeps uploadId (hissued _ rfl) body
  | chunk uploadId chunkIndex data => exact uploadChunk_keeps uploadId chunkIndex data
  | status uploadId => exact uploadStatus_keeps uploadId
  | complete uploadId thumbHex mediaHex =>
    exact uploadComplete_keeps pillow uploadId thumbHex mediaHex

/-! ## Two runs -/

abbrev Uploads := Service Backend UUID Command Command.Reply HttpError Response

def Uploads.empty : Uploads := ⟨.empty, fun _ => []⟩

abbrev uploadsStep : Uploads → Arrival Time UUID Request → Option Uploads :=
  Service.step (handle pillow) exec

/-- The id that an event draws. -/
def draws (a : Arrival Time UUID Request) : Option String :=
  match a.event with
  | .request request => request.drawn
  | .resume _ => none

/-- No id drawn for `u` is drawn for another user. -/
def NoCollision (u : UUID) (as : List (Arrival Time UUID Request)) : Prop :=
  ∀ a ∈ as, ∀ b ∈ as, a.user = u → b.user ≠ u → (draws a).isSome → draws a ≠ draws b

instance (u : UUID) (as : List (Arrival Time UUID Request)) : Decidable (NoCollision u as) := by
  unfold NoCollision
  infer_instance

def isOf (u : UUID) (a : Arrival Time UUID Request) : Bool := decide (a.user = u)

/-- For each event of `u`, whether its command is a `GET` that meets a set of chunks. -/
def setsMet (u : UUID) (as : List (Arrival Time UUID Request)) : List (Option Bool) :=
  glances (uploadsStep pillow) (isOf u) (Service.sees meetsSet) .empty as

/-- The ids that are drawn for `u`. -/
def drawnFor (u : UUID) (as : List (Arrival Time UUID Request)) : List String :=
  (as.filter (isOf u)).filterMap draws

variable {as bs : List (Arrival Time UUID Request)}

theorem mem_drawnFor {uploadId : String} : uploadId ∈ drawnFor u as ↔
    ∃ a ∈ as, a.user = u ∧ draws a = some uploadId := by
  unfold drawnFor isOf
  rw [List.mem_filterMap]
  constructor
  · rintro ⟨a, ha, hdraws⟩
    obtain ⟨hmem, huser⟩ := List.mem_filter.mp ha
    exact ⟨a, hmem, of_decide_eq_true huser, hdraws⟩
  · rintro ⟨a, hmem, huser, hdraws⟩
    exact ⟨a, List.mem_filter.mpr ⟨hmem, decide_eq_true huser⟩, hdraws⟩

theorem draws_urlSafe {a : Arrival Time UUID Request} {uploadId : String}
    (h : draws a = some uploadId) : UrlSafe uploadId := by
  unfold draws at h
  cases hevent : a.event with
  | resume i =>
    rw [hevent] at h
    cases h
  | request request =>
    rw [hevent] at h
    cases request with
    | init drawn body =>
      cases h
      exact drawn.urlSafe
    | chunk uploadId chunkIndex data => cases h
    | status uploadId => cases h
    | complete uploadId thumbHex mediaHex => cases h

/-- Without collisions, every request keeps to the ids drawn for its user. -/
theorem lawful_of_noCollision (h : NoCollision u as) (a : Arrival Time UUID Request)
    (ha : a ∈ as) : Lawful (handle pillow) (contract (drawnFor u as) u) a := by
  intro request hevent
  refine handle_keeps pillow request fun uploadId hdrawn => ?_
  have hdraws : draws a = some uploadId := by
    unfold draws
    rw [hevent]
    exact hdrawn
  constructor
  · intro hmem
    obtain ⟨b, hb, huser, hdraws'⟩ := mem_drawnFor.mp hmem
    by_contra hne
    exact h b hb a ha huser hne (by rw [hdraws']; rfl) (hdraws'.trans hdraws.symm)
  · exact fun huser => mem_drawnFor.mpr ⟨a, ha, huser, hdraws⟩

theorem goodKeys_empty (T : List String) (u : UUID) : GoodKeys T u .empty := by
  intro key entry hentry
  cases hentry

/-- **Isolation of uploads.** In two runs with the same requests of `u` and any requests of
    other users, in which no id drawn for `u` is drawn for another, `u` is answered alike
    if and only if the same `GET`s of `u` meet a set of chunks. -/
theorem sameAnswers_iff {Image : Type} (pillow : Option (Pillow Image)) (u : UUID)
    (as bs : List (Arrival Time UUID Request))
    (hsame : as.filter (isOf u) = bs.filter (isOf u))
    (has : NoCollision u as) (hbs : NoCollision u bs) (s t : Uploads)
    (hs : run (uploadsStep pillow) .empty as = some s)
    (ht : run (uploadsStep pillow) .empty bs = some t) :
    s.responses u = t.responses u ↔ setsMet pillow u as = setsMet pillow u bs := by
  have hdrawn : drawnFor u bs = drawnFor u as := congrArg (List.filterMap draws) hsame.symm
  have hsafe : ∀ uploadId ∈ drawnFor u as, UrlSafe uploadId := by
    intro uploadId hmem
    obtain ⟨a, -, -, hdraws⟩ := mem_drawnFor.mp hmem
    exact draws_urlSafe hdraws
  refine (isolates hsafe).same_responses_iff .empty (goodKeys_empty _ u) (fun _ _ x _ => .refl _ x)
    (lawful_of_noCollision pillow has) (fun b hb => ?_) hsame hs ht
  rw [← hdrawn]
  exact lawful_of_noCollision pillow hbs b hb

/-! ## Two users -/

theorem urlSafe_t : UrlSafe "t" := by
  intro c hc
  obtain rfl : c = 't' := by simpa using hc
  exact .inl rfl

def sampleToken : Drawn := ⟨"t", urlSafe_t⟩

def samplePdf : UploadInitIn :=
  ⟨"a.pdf", "application/pdf", 1, by decide, by decide, by decide⟩

/-- A user uploads the one chunk of a file. -/
def sampleUpload : List (Arrival Time UUID Request) :=
  ⟨0, 2, .request (.init sampleToken samplePdf)⟩ :: ⟨0, 2, .resume 0⟩ ::
    ⟨0, 2, .request (.chunk "t" 0 [7])⟩ :: List.replicate 4 ⟨0, 2, .resume 1⟩

/-- Another user asks for the status of an upload. -/
def sampleAsk (uploadId : String) : List (Arrival Time UUID Request) :=
  [⟨1, 1, .request (.status uploadId)⟩, ⟨1, 1, .resume 0⟩]

/-- The errors with which a user has been answered. -/
def errorsOf (u : UUID) (s : Uploads) : List (Option HttpError) :=
  (s.responses u).map fun response => response.bind fun outcome =>
    match outcome with
    | .ok _ => none
    | .error error => some error

/-- The id of another user's upload is answered as an unknown one. -/
theorem foreign_id_hidden :
    ∃ s t, run (uploadsStep noPillow) .empty (sampleUpload ++ sampleAsk "t") = some s ∧
      run (uploadsStep noPillow) .empty (sampleAsk "t") = some t ∧
        errorsOf 1 t = [some notFound] ∧ s.responses 1 = t.responses 1 := by
  have hs : (run (uploadsStep noPillow) .empty (sampleUpload ++ sampleAsk "t")).map (errorsOf 1) =
      some [some notFound] := by
    decide +kernel
  have ht : (run (uploadsStep noPillow) .empty (sampleAsk "t")).map (errorsOf 1) =
      some [some notFound] := by
    decide +kernel
  obtain ⟨s, hs, -⟩ := Option.map_eq_some_iff.mp hs
  obtain ⟨t, ht, herrors⟩ := Option.map_eq_some_iff.mp ht
  exact ⟨s, t, hs, ht, herrors, (sameAnswers_iff noPillow 1 (sampleUpload ++ sampleAsk "t")
    (sampleAsk "t") rfl (by decide +kernel) (by decide +kernel) s t hs ht).mpr (by decide +kernel)⟩

theorem foreign_chunks_tell :
    ¬ ∀ (pillow : Option (Pillow Unit)) u as bs, as.filter (isOf u) = bs.filter (isOf u) →
      NoCollision u as → NoCollision u bs → ∀ s t : Uploads,
        run (uploadsStep pillow) .empty as = some s →
          run (uploadsStep pillow) .empty bs = some t → s.responses u = t.responses u := by
  intro h
  have hs : (run (uploadsStep noPillow) .empty (sampleUpload ++ sampleAsk "chunks:t")).map
      (errorsOf 1) = some [some internalServerError] := by
    decide +kernel
  have ht : (run (uploadsStep noPillow) .empty (sampleAsk "chunks:t")).map (errorsOf 1) =
      some [some notFound] := by
    decide +kernel
  obtain ⟨s, hs, hserrors⟩ := Option.map_eq_some_iff.mp hs
  obtain ⟨t, ht, hterrors⟩ := Option.map_eq_some_iff.mp ht
  have hsame := h noPillow 1 (sampleUpload ++ sampleAsk "chunks:t") (sampleAsk "chunks:t") rfl
    (by decide +kernel) (by decide +kernel) s t hs ht
  unfold errorsOf at hserrors hterrors
  rw [hsame, hterrors] at hserrors
  cases hserrors

end IronLink.Media.Routes
