import IronLink.Common.Decimal
import IronLink.Common.Text

/-!
# The Redis pools

`Settings.redis_url` (app/config.py:73-92) and `_make_pool` (app/core/redis.py:8-23), which
replaces the text `/{REDIS_DB}` in the URL, wherever it stands, by `/{db}`.

Results:
* `infix_beforeDb_iff`: where the text may stand before the end of the URL.
* `makePool_url_iff`: the URL of a pool is that of the server with the other index exactly
  when the index is the same, or neither the password nor the host has the text, and
  without a password the host does not begin with the base index.
* `pools_apart`: pools of different indices then have different URLs.
* `pool_of_another_server`: an index that leads to another host.
-/

namespace IronLink.Core

open Lib Text Decimal

/-! ## Model -/

/-- The Redis part of `Settings`. -/
structure Settings where
  redisHost : String := "redis"
  redisPort : ℤ := 6379
  redisPassword : String := ""
  redisDb : ℤ := 0
  redisDbPubsub : ℤ := 0
  redisDbOtp : ℤ := 1
  redisDbSessions : ℤ := 2

/-- `redis_url` up to the index, without the last `/`. -/
def Settings.beforeDb (s : Settings) : String :=
  let auth := if s.redisPassword ≠ "" then ":" ++ s.redisPassword ++ "@" else ""
  "redis://" ++ auth ++ s.redisHost ++ ":" ++ toString s.redisPort

/-- `redis_url`. -/
def Settings.redisUrl (s : Settings) : String := s.beforeDb ++ "/" ++ toString s.redisDb

/-- What is given to `ConnectionPool.from_url`. -/
structure ConnectionPool where
  url : String
  maxConnections : ℕ
  decodeResponses : Bool
  deriving DecidableEq

/-- `_make_pool`. -/
def makePool (settings : Settings) (db : ℤ) : ConnectionPool :=
  ⟨replaceAll settings.redisUrl ("/" ++ toString settings.redisDb) ("/" ++ toString db), 50, true⟩

def poolPubsub (settings : Settings) : ConnectionPool := makePool settings settings.redisDbPubsub

def poolOtp (settings : Settings) : ConnectionPool := makePool settings settings.redisDbOtp

def poolSessions (settings : Settings) : ConnectionPool :=
  makePool settings settings.redisDbSessions

/-! ## Property and condition -/

/-- The URL is the one of the settings with `REDIS_DB = db`. -/
def PointsTo (settings : Settings) (db : ℤ) (pool : ConnectionPool) : Prop :=
  pool.url = { settings with redisDb := db }.redisUrl

instance (settings : Settings) (db : ℤ) (pool : ConnectionPool) :
    Decidable (PointsTo settings db pool) := inferInstanceAs (Decidable (_ = _))

/-- `/{REDIS_DB}` stands in the password or in the host, or `redis://{REDIS_DB}` begins the
    URL. -/
def EarlierMatch (s : Settings) : Prop :=
  ("/" ++ toString s.redisDb).toList <:+: s.redisPassword.toList ∨
    ("/" ++ toString s.redisDb).toList <:+: s.redisHost.toList ∨
      s.redisPassword = "" ∧ (toString s.redisDb).toList <+: s.redisHost.toList

instance (s : Settings) : Decidable (EarlierMatch s) :=
  inferInstanceAs (Decidable (_ ∨ _ ∨ _ ∧ _))

/-! ## Where the text stands -/

theorem not_mem_slash (n : ℤ) : '/' ∉ (toString n).toList :=
  not_mem_toString (by decide) (by decide) n

theorem toList_slash (n : ℤ) : ("/" ++ toString n).toList = '/' :: (toString n).toList := by
  rw [String.toList_append]
  rfl

/-- A separator that is neither a digit nor `-` nor `/`. -/
theorem infix_slash_sep {x : Char} (hx : x.isDigit = false ∧ x ≠ '-' ∧ x ≠ '/') (n : ℤ)
    (xs ys : List Char) : '/' :: (toString n).toList <:+: xs ++ x :: ys ↔
      '/' :: (toString n).toList <:+: xs ∨ '/' :: (toString n).toList <:+: ys :=
  infix_append_sep (by
    rw [List.mem_cons, not_or]
    exact ⟨hx.2.2, not_mem_toString hx.1 hx.2.1 n⟩) (List.cons_ne_nil _ _)

/-- The text needs a `/`. -/
theorem not_infix_slash {n : ℤ} {cs : List Char} (h : '/' ∉ cs) :
    ¬ '/' :: (toString n).toList <:+: cs := fun hmatch => h (hmatch.subset List.mem_cons_self)

/-- After `//` the text begins at the second `/`, or comes later. -/
theorem infix_slashes (n : ℤ) (cs : List Char) :
    '/' :: (toString n).toList <:+: '/' :: '/' :: cs ↔
      (toString n).toList <+: cs ∨ '/' :: (toString n).toList <:+: cs := by
  have hfirst : ¬ (toString n).toList <+: '/' :: cs := fun h =>
    not_mem_slash n (mem_of_prefix_cons (toList_toString_ne_nil n) h)
  rw [List.infix_cons_iff, List.infix_cons_iff, List.cons_prefix_cons, List.cons_prefix_cons]
  simp only [true_and, hfirst, false_or]

theorem infix_beforeDb_iff (s : Settings) :
    '/' :: (toString s.redisDb).toList <:+: s.beforeDb.toList ↔ EarlierMatch s := by
  have hport : ¬ '/' :: (toString s.redisDb).toList <:+: (toString s.redisPort).toList :=
    not_infix_slash (not_mem_slash _)
  have hscheme : ¬ '/' :: (toString s.redisDb).toList <:+: "redis".toList :=
    not_infix_slash (by decide)
  have hcolon := infix_slash_sep (x := ':') (by decide) s.redisDb
  have hat := infix_slash_sep (x := '@') (by decide) s.redisDb
  unfold EarlierMatch
  rw [toList_slash]
  by_cases hpassword : s.redisPassword = ""
  · have hurl : s.beforeDb.toList = "redis".toList ++ ':' :: (('/' :: '/' :: s.redisHost.toList) ++
        ':' :: (toString s.redisPort).toList) := by
      simp [Settings.beforeDb, hpassword]
    have hnil : ¬ '/' :: (toString s.redisDb).toList <:+: "".toList := not_infix_slash (by decide)
    rw [hurl, hcolon, hcolon, infix_slashes, hpassword]
    simp only [hscheme, hport, hnil, true_and, false_or, or_false]
    exact or_comm
  · have hurl : s.beforeDb.toList = "redis".toList ++ ':' :: (['/', '/'] ++
        ':' :: (s.redisPassword.toList ++ '@' :: (s.redisHost.toList ++
          ':' :: (toString s.redisPort).toList))) := by
      simp [Settings.beforeDb, hpassword]
    have hnil : ¬ '/' :: (toString s.redisDb).toList <:+: [] := not_infix_slash (by decide)
    rw [hurl, hcolon, hcolon, hat, hcolon, infix_slashes]
    simp only [hscheme, hport, hnil, hpassword, List.prefix_nil, toList_toString_ne_nil,
      false_and, false_or, or_false]

theorem toList_redisUrl (s : Settings) :
    s.redisUrl.toList = s.beforeDb.toList ++ '/' :: (toString s.redisDb).toList := by
  unfold Settings.redisUrl
  rw [String.append_assoc, String.toList_append, toList_slash]

/-- **Pools.** The URL of a pool points to the other index of the same server exactly when
    the index is the same or the replaced text stands nowhere else. -/
theorem makePool_url_iff (settings : Settings) (db : ℤ) :
    PointsTo settings db (makePool settings db) ↔
      db = settings.redisDb ∨ ¬ EarlierMatch settings := by
  have hother : { settings with redisDb := db }.redisUrl.toList =
      settings.beforeDb.toList ++ '/' :: (toString db).toList := toList_redisUrl _
  have hsame : (toString settings.redisDb).toList = (toString db).toList ↔
      db = settings.redisDb := by
    rw [String.toList_inj]
    exact ⟨fun h => (toString_injective h).symm, fun h => h ▸ rfl⟩
  unfold PointsTo makePool replaceAll
  rw [← String.toList_inj, String.toList_ofList, hother, toList_redisUrl, toList_slash,
    toList_slash, replace_last_iff (not_mem_slash _), hsame, infix_beforeDb_iff]

/-- No two indices of a server have the same URL. -/
theorem redisUrl_injective {settings : Settings} {db db' : ℤ}
    (h : { settings with redisDb := db }.redisUrl = { settings with redisDb := db' }.redisUrl) :
    db = db' := by
  have hlist := congrArg String.toList h
  rw [toList_redisUrl, toList_redisUrl] at hlist
  have hdigits := List.tail_eq_of_cons_eq (List.append_cancel_left hlist)
  exact toString_injective (String.toList_inj.mp hdigits)

theorem pools_apart {settings : Settings} {db db' : ℤ}
    (h : PointsTo settings db (makePool settings db))
    (h' : PointsTo settings db' (makePool settings db')) (hne : db ≠ db') :
    makePool settings db ≠ makePool settings db' := by
  intro heq
  exact hne (redisUrl_injective (h.symm.trans ((congrArg ConnectionPool.url heq).trans h')))

/-- Redis on `10.0.0.5` without a password, `REDIS_DB = 1`: the pool of the sessions is at
    `20.0.0.5`. -/
def byAddress : Settings := { redisHost := "10.0.0.5", redisDb := 1 }

theorem pool_of_another_server :
    (poolSessions byAddress).url = "redis://20.0.0.5:6379/2" ∧
      ¬ PointsTo byAddress byAddress.redisDbSessions (poolSessions byAddress) := by
  decide +kernel

end IronLink.Core
