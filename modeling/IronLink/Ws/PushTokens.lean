import IronLink.Ws.Receive
import IronLink.Lib.Run

/-!
# Whose device a push reaches

The app registers the token of its device under the account that is signed in
(`register_fcm_token`, app/api/routes/broadcasts.py:75-83); a push for a user goes to the
token in the user's row. Nothing takes a token out of the row of the account that has used
the device before.

Results:
* `pushesPrivate_iff`: the runs in which no two rows hold one token, and every push goes to
  a token that its addressee has registered last.
* `preview_leaks`: a run in which a preview reaches the next user of the device.
-/

namespace IronLink.Ws

open Lib Auth Messages

/-! ## Model -/

/-- `FcmTokenIn` (app/api/routes/broadcasts.py:28-29). Other bodies are refused with 422. -/
structure FcmTokenIn where
  token : String
  token_ge : 32 ≤ token.length
  token_le : token.length ≤ 512

/-- `register_fcm_token`: the response and the table. -/
def registerFcmToken (users : Users) (now : Time) (creds : Option AccessToken)
    (body : FcmTokenIn) : Except HttpError Unit × Users :=
  match getCurrentUser users now creds with
  | .error err => (.error err, users)
  | .ok user =>
    if user.fcmToken = some body.token then (.ok (), users)
    else if columnTakes 512 body.token then
      (.ok (), Table.modify User.id users user.id fun row =>
        { row with fcmToken := some body.token })
    else (.error internalServerError, users)

/-- The server, who has registered each token last, and whether a push has gone to a token
    that its addressee has not registered last. -/
structure PushState where
  world : World
  registered : String → Option UUID
  leaked : Bool

inductive PushAction
  | register (creds : Option AccessToken) (body : FcmTokenIn)
  /-- a frame on a socket of `userId`; `refuses` is `messaging.send` -/
  | frame (userId : UUID) (connectionId : String) (fresh : NewRow) (frame : Frame)
      (refuses : Refuses)
  /-- groups, connections, messages and the setting of Firebase become other ones -/
  | surroundings (groups : Groups) (messages : MessageRows) (presence : Presence) (fcm : Bool)
  | tick (d : ℕ)

/-- A push for `toId` to a token that `toId` has not registered last. -/
def Effect.leaks (registered : String → Option UUID) (toId : Option UUID) : Effect → Bool
  | .push fcmToken _ _ _ => registered fcmToken ≠ toId
  | _ => false

/-- Who has registered each token last, after the call. -/
def registeredAfter (users : Users) (now : Time) (creds : Option AccessToken) (body : FcmTokenIn)
    (registered : String → Option UUID) : String → Option UUID :=
  match getCurrentUser users now creds, (registerFcmToken users now creds body).1 with
  | .ok user, .ok () => Function.update registered body.token (some user.id)
  | _, _ => registered

def pushStep (s : PushState) : PushAction → Option PushState
  | .register creds body =>
    some { s with
      world := { s.world with
        users := (registerFcmToken s.world.users s.world.now creds body).2 }
      registered := registeredAfter s.world.users s.world.now creds body s.registered }
  | .frame userId connectionId fresh frame refuses =>
    let t := (handleFrame s.world userId connectionId fresh frame).turn refuses userId
      connectionId
    some { s with
      world := t.world
      leaked := s.leaked ||
        t.effects.any (Effect.leaks s.registered (uuidOrNone (Json.get frame "to"))) }
  | .surroundings groups messages presence fcm =>
    some { s with
      world := { s.world with
        groups := groups, messages := messages, presence := presence, fcm := fcm } }
  | .tick d => some { s with world := { s.world with now := s.world.now + d } }

/-- Nobody has registered a token. -/
def PushState.init (world : World) : PushState := ⟨world, fun _ => none, false⟩

/-! ## Property and condition -/

/-- No two rows hold the same token. -/
def TokensDistinct (users : Users) : Prop :=
  ∀ user ∈ users, ∀ other ∈ users, ∀ token, user.fcmToken = some token →
    other.fcmToken = some token → user.id = other.id

/-- Every push so far has gone to a token that its addressee has registered last, and no two
    rows hold the same token. -/
def PushesPrivate (s : PushState) : Prop := s.leaked = false ∧ TokensDistinct s.world.users

/-- The token that a user registers is in nobody else's row. -/
def Released (s : PushState) : PushAction → Prop
  | .register creds body => ∀ user, getCurrentUser s.world.users s.world.now creds = .ok user →
      columnTakes 512 body.token = true →
        ∀ other ∈ s.world.users, other.fcmToken = some body.token → other.id = user.id
  | _ => True

/-! ## The invariant -/

structure TokenInv (s : PushState) : Prop where
  keys : (s.world.users.map User.id).Nodup
  quiet : s.leaked = false
  /-- A row's token was last registered by its user. -/
  own : ∀ user ∈ s.world.users, ∀ token, user.fcmToken = some token →
    s.registered token = some user.id

theorem TokenInv.isPrivate {s : PushState} (h : TokenInv s) : PushesPrivate s :=
  ⟨h.quiet, fun user huser other hother token htoken htoken' =>
    Option.some.inj ((h.own user huser token htoken).symm.trans (h.own other hother token htoken'))⟩

theorem tokenInv_init {w : World} (hkeys : (w.users.map User.id).Nodup)
    (htokens : ∀ user ∈ w.users, user.fcmToken = none) : TokenInv (PushState.init w) where
  keys := hkeys
  quiet := rfl
  own user huser token htoken := by
    rw [htokens user huser] at htoken
    cases htoken

theorem getCurrentUser_mem {users : Users} {now : Time} {creds : Option AccessToken} {row : User}
    (h : getCurrentUser users now creds = .ok row) : row ∈ users := by
  unfold getCurrentUser at h
  split at h
  · cases h
  · unfold selectUser at h
    split at h
    · cases h
    · rename_i user huser
      split_ifs at h
      obtain rfl := Except.ok.inj h
      obtain ⟨id, -, hid⟩ := Option.bind_eq_some_iff.mp huser
      exact Table.find_mem hid

/-! ## Frames -/

variable {w : World} {userId : UUID} {fresh : NewRow} {toId : UUID} {frame : Frame}

theorem mem_sendMessagePush {fcm : Bool}
    {token name preview peer fcmToken title body peerId : String}
    (h : .push fcmToken title body peerId ∈ sendMessagePush fcm token name preview peer) :
    fcmToken = token := by
  unfold sendMessagePush at h
  cases fcm with
  | true => exact (Effect.push.inj (List.mem_singleton.mp h)).1
  | false => exact absurd h List.not_mem_nil

/-- The token of a push is the one in the addressee's row. -/
theorem token_of_mem_offlinePush {messageType : MessageType} {content : Option String}
    {fcmToken title body peerId : String}
    (h : .push fcmToken title body peerId ∈ offlinePush w userId toId messageType content) :
    ∃ recipient ∈ w.users, recipient.id = toId ∧ recipient.fcmToken = some fcmToken := by
  unfold offlinePush at h
  split at h
  · rename_i recipient sender hrecipient _
    refine ⟨recipient, Table.find_mem hrecipient, Users.byId_id hrecipient, ?_⟩
    cases htoken : recipient.fcmToken with
    | none =>
      rw [htoken] at h
      exact absurd h List.not_mem_nil
    | some token =>
      rw [htoken] at h
      by_cases htruthy : truthyStr (some token) = true
      · rw [if_pos htruthy] at h
        rw [mem_sendMessagePush h]
        rfl
      · rw [if_neg htruthy] at h
        exact absurd h List.not_mem_nil
  · exact absurd h List.not_mem_nil

/-- Only a content frame makes a push, for the user it names in `to`. -/
theorem token_of_mem_handleContent {messageType : MessageType}
    {fcmToken title body peerId : String}
    (h : .push fcmToken title body peerId ∈
      (handleContent w userId fresh messageType frame).effects) :
    ∃ recipient ∈ w.users, some recipient.id = uuidOrNone (Json.get frame "to") ∧
      recipient.fcmToken = some fcmToken := by
  cases hto : uuidOrNone (Json.get frame "to") with
  | none =>
    unfold handleContent at h
    rw [hto] at h
    cases List.mem_singleton.mp h
  | some toId =>
    cases hrow : contentRow w.now fresh userId toId messageType frame with
    | none =>
      unfold handleContent at h
      rw [hto] at h
      dsimp only at h
      rw [hrow] at h
      exact absurd h List.not_mem_nil
    | some msg =>
      rw [handleContent_of_row hto hrow] at h
      split_ifs at h with hins honline
      · simp at h
      · obtain hpush | hrest := List.mem_append.mp h
        · obtain ⟨recipient, hmem, hid, htoken⟩ := token_of_mem_offlinePush hpush
          exact ⟨recipient, hmem, congrArg some hid, htoken⟩
        · simp at hrest
      · exact absurd h List.not_mem_nil

theorem token_of_mem_handleFrame {connectionId fcmToken title body peerId : String}
    (h : .push fcmToken title body peerId ∈
      (handleFrame w userId connectionId fresh frame).effects) :
    ∃ recipient ∈ w.users, some recipient.id = uuidOrNone (Json.get frame "to") ∧
      recipient.fcmToken = some fcmToken := by
  unfold handleFrame at h
  split at h
  · cases List.mem_singleton.mp h
  · cases List.mem_singleton.mp h
  · split at h
    · exact absurd h List.not_mem_nil
    · cases List.mem_singleton.mp h
  · exact token_of_mem_handleContent h
  · unfold handleReceipt at h
    split at h
    · exact absurd h List.not_mem_nil
    · dsimp only at h
      split at h
      · cases List.mem_singleton.mp h
      · exact absurd h List.not_mem_nil
  · unfold handleUnsend at h
    split at h
    · exact absurd h List.not_mem_nil
    · split at h
      · cases List.mem_singleton.mp h
      · simp at h
  · cases List.mem_singleton.mp h

theorem turn_users (refuses : Refuses) (connectionId : String) (h : Handled) :
    (h.turn refuses userId connectionId).world.users = h.world.users := by
  unfold Handled.turn
  split_ifs <;> rfl

/-! ## Runs -/

variable {s s' : PushState}

theorem tokenInv_frame (h : TokenInv s) {connectionId : String} {refuses : Refuses}
    (hstep : pushStep s (.frame userId connectionId fresh frame refuses) = some s') :
    TokenInv s' := by
  obtain rfl := Option.some.inj hstep
  have husers : ((handleFrame s.world userId connectionId fresh frame).turn refuses userId
      connectionId).world.users = s.world.users :=
    (turn_users ..).trans (handleFrame_frame ..).2.1
  refine ⟨?_, ?_, ?_⟩
  · dsimp only
    rw [husers]
    exact h.keys
  · dsimp only
    rw [h.quiet, Bool.false_or, List.any_eq_false]
    intro e he
    have he := mem_turn_effects he
    cases e with
    | send f => exact Bool.false_ne_true
    | publish u f => exact Bool.false_ne_true
    | push fcmToken title body peerId =>
      obtain ⟨recipient, hmem, hto, htoken⟩ := token_of_mem_handleFrame he
      simp [Effect.leaks, h.own recipient hmem fcmToken htoken, hto]
  · dsimp only
    rw [husers]
    exact h.own

theorem tokenInv_register (h : TokenInv s) {creds : Option AccessToken} {body : FcmTokenIn}
    (hguard : Released s (.register creds body))
    (hstep : pushStep s (.register creds body) = some s') : TokenInv s' := by
  obtain rfl := Option.some.inj hstep
  cases hcaller : getCurrentUser s.world.users s.world.now creds with
  | error err =>
    have hresult : registerFcmToken s.world.users s.world.now creds body =
        (.error err, s.world.users) := by
      unfold registerFcmToken
      rw [hcaller]
    unfold registeredAfter
    rw [hcaller, hresult]
    exact h
  | ok user =>
    have huser := getCurrentUser_mem hcaller
    unfold registeredAfter registerFcmToken
    rw [hcaller]
    dsimp only
    split_ifs with hsame htakes
    · -- the row holds the token already
      refine ⟨h.keys, h.quiet, fun row hrow token htoken => ?_⟩
      by_cases heq : token = body.token
      · subst heq
        have := (h.own row hrow _ htoken).symm.trans (h.own user huser _ hsame)
        exact (Function.update_self ..).trans this.symm
      · exact (Function.update_of_ne heq ..).trans (h.own row hrow token htoken)
    · refine ⟨?_, h.quiet, fun row hrow token htoken => ?_⟩
      · dsimp only
        rw [Table.map_key_modify]
        · exact h.keys
        · exact fun _ => rfl
      · obtain ⟨old, hold, hrow⟩ := List.mem_map.mp hrow
        split_ifs at hrow with hid
        · subst hrow
          obtain rfl : body.token = token := Option.some.inj htoken
          exact (Function.update_self ..).trans (congrArg some hid.symm)
        · subst hrow
          by_cases heq : token = body.token
          · subst heq
            exact absurd (hguard user hcaller htakes old hold htoken) hid
          · exact (Function.update_of_ne heq ..).trans (h.own old hold token htoken)
    · exact h

theorem tokenInv_step (h : TokenInv s) {a : PushAction} (hguard : Released s a)
    (hstep : pushStep s a = some s') : TokenInv s' := by
  cases a with
  | register creds body => exact tokenInv_register h hguard hstep
  | frame userId connectionId fresh frame refuses => exact tokenInv_frame h hstep
  | surroundings groups messages presence fcm =>
    obtain rfl := Option.some.inj hstep
    exact ⟨h.keys, h.quiet, h.own⟩
  | tick d =>
    obtain rfl := Option.some.inj hstep
    exact ⟨h.keys, h.quiet, h.own⟩

/-- A token that is in another row ends up in two. -/
theorem not_private_register (h : TokenInv s) {a : PushAction} (hguard : ¬ Released s a) :
    ∃ s', pushStep s a = some s' ∧ ¬ PushesPrivate s' := by
  cases a with
  | frame userId connectionId fresh frame refuses => exact absurd trivial hguard
  | surroundings groups messages presence fcm => exact absurd trivial hguard
  | tick d => exact absurd trivial hguard
  | register creds body =>
    unfold Released at hguard
    push Not at hguard
    obtain ⟨user, hcaller, htakes, other, hother, htoken, hne⟩ := hguard
    have huser := getCurrentUser_mem hcaller
    have hnew : user.fcmToken ≠ some body.token := fun hsame =>
      hne (Option.some.inj ((h.own other hother _ htoken).symm.trans (h.own user huser _ hsame)))
    have hresult : (registerFcmToken s.world.users s.world.now creds body).2 =
        Table.modify User.id s.world.users user.id fun row =>
          { row with fcmToken := some body.token } := by
      unfold registerFcmToken
      rw [hcaller]
      dsimp only
      rw [if_neg hnew, if_pos htakes]
    refine ⟨_, rfl, fun hprivate => hne ?_⟩
    have hdistinct : TokensDistinct (registerFcmToken s.world.users s.world.now creds body).2 :=
      hprivate.2
    rw [hresult] at hdistinct
    refine hdistinct other ?_ { user with fcmToken := some body.token } ?_ body.token htoken rfl
    · exact List.mem_map.mpr ⟨other, hother, if_neg hne⟩
    · exact List.mem_map.mpr ⟨user, huser, if_pos rfl⟩

/-- Pushes stay private in a run exactly when every token that is registered has left the
    rows of all other users. -/
theorem pushesPrivate_iff {w : World} (hkeys : (w.users.map User.id).Nodup)
    (htokens : ∀ user ∈ w.users, user.fcmToken = none) (actions : List PushAction) :
    Throughout pushStep PushesPrivate (PushState.init w) actions ↔
      Guarded pushStep Released (PushState.init w) actions :=
  throughout_iff_guarded (fun _ h => h.isPrivate) (fun _ _ _ h hguard hstep =>
    tokenInv_step h hguard hstep) (fun _ _ h hguard => not_private_register h hguard)
    (tokenInv_init hkeys htokens)

/-! ## A device changes hands -/

/-- A third user, who writes to the first. -/
def thirdUser : User := { sampleUser with id := 9, phoneNumber := "+201000000009" }

def handoverWorld : World := { sampleWorld with users := [sampleUser, sampleAdmin, thirdUser] }

/-- The token of the device. -/
def deviceToken : FcmTokenIn where
  token := "dX5cKqzHQ0y8s5W8mJv3aR:APA91bFx1-device"
  token_ge := by decide
  token_le := by decide

/-- The session of a user. -/
def session (userId : UUID) : AccessToken := ⟨userId.str, 1, .SOLDIER, 0, 3600⟩

/-- User `7` uses the device, then user `1`. User `9` writes to `7`, who is offline. -/
def handover : List PushAction :=
  [.register (some (session 7)) deviceToken, .register (some (session 1)) deviceToken,
    .frame 9 "c9" 100 (sampleFrame "text" 7 [("content", .str "for seven only")])
      fun _ _ _ _ => false]

/-- The preview for `7` goes to the device of `1`. -/
theorem preview_leaks : ∃ s, run pushStep (PushState.init handoverWorld) handover = some s ∧
    s.leaked = true ∧ ¬ PushesPrivate s := by
  have hends : (run pushStep (PushState.init handoverWorld) handover).map (·.leaked) =
      some true := by
    decide +kernel
  obtain ⟨s, hrun, hleaked⟩ := Option.map_eq_some_iff.mp hends
  refine ⟨s, hrun, hleaked, fun hprivate => ?_⟩
  rw [hprivate.1] at hleaked
  cases hleaked

theorem pushesPrivate_handover : Throughout pushStep PushesPrivate (PushState.init handoverWorld)
      handover ↔ Guarded pushStep Released (PushState.init handoverWorld) handover :=
  pushesPrivate_iff (by decide) (by decide) handover

end IronLink.Ws
