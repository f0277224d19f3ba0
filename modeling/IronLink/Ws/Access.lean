import IronLink.Auth.TokenVersion
import IronLink.Ws.Frame

/-!
# Who may still act

An account acts through a bearer token, a 30-second WebSocket ticket or an open
socket. `get_current_user` checks the status of the row at every request;
`chat_socket` and `_handle_frame` check nothing but the ticket, and the expiry
date is looked at by `verify` alone. A request and a connect await the database
and Redis several times, and anything may happen in between.

Results:
* `suspended_socket_still_acts`: a frame on a socket that was open before the
  suspension is stored and published after it.
* `acts_only_active_of_nothingOutstanding`: as long as no account is suspended
  or expires while it still holds a ticket, a socket, a request that has been
  let through or a token that would be accepted, only active, unexpired
  accounts act.
-/

namespace IronLink.Ws

open Lib Auth Messages

/-! ## Model -/

/-- A WebSocket of `user`. -/
structure Socket where
  user : UUID
  connectionId : String
  isOpen : Bool
  deriving DecidableEq

/-- A route behind `get_current_user`. -/
inductive Route
  | wsTicket
  | setUserStatus (userId : UUID) (action : StatusAction)
  | other
  deriving DecidableEq

/-- A request or a connect, and what it awaits. -/
inductive InFlight
  /-- the token is decoded; the query of `get_current_user` is to come -/
  | decoded (payload : AccessToken) (route : Route)
  /-- `create_ws_ticket` runs for `user`; the `SET` is to come -/
  | ticket (user : UUID)
  /-- `getdel` has answered `user`; `accept` is to come -/
  | redeemed (user : UUID)
  /-- `register` is to come -/
  | accepted (user : UUID)
  deriving DecidableEq

/-- The token of a request that `get_current_user` has not answered. -/
def InFlight.payload : InFlight → Option AccessToken
  | .decoded payload _ => some payload
  | _ => none

/-- The user that has been let through. -/
def InFlight.user : InFlight → Option UUID
  | .decoded _ _ => none
  | .ticket user => some user
  | .redeemed user => some user
  | .accepted user => some user

/-- The server. `handedOut` is no data of the program: the tickets issued so
    far. -/
structure AccessState where
  account : AccountState
  groups : Groups
  messages : MessageRows
  presence : Presence
  fcm : Bool
  /-- `ws:ticket:{ticket}` -/
  tickets : TtlMap Time String String
  requests : List InFlight
  sockets : List Socket
  handedOut : List String

/-- A server with the rows of `w`, before anyone has logged in. -/
def AccessState.init (w : World) : AccessState :=
  ⟨⟨w.now, w.users, [], []⟩, w.groups, w.messages, w.presence, w.fcm, fun _ => none, [], [], []⟩

/-- What a frame handler sees. -/
def AccessState.world (s : AccessState) : World :=
  ⟨s.account.now, s.account.users, s.groups, s.messages, s.presence, s.fcm⟩

def AccessState.withWorld (s : AccessState) (w : World) : AccessState :=
  { s with messages := w.messages, presence := w.presence }

/-- `set_user_status` after `get_current_user`, up to the changes
    (app/api/routes/admin.py:28-30 and 110-114). -/
def readTarget (account : AccountState) (user : User) (userId : UUID) (action : StatusAction) :
    AccountState :=
  match superadminCheck user with
  | .error _ => account
  | .ok admin =>
    match statusTarget account.users admin userId with
    | .error _ => account
    | .ok target => { account with txs := account.txs ++ [.status target action] }

/-- The query of `get_current_user` in the `i`-th request, and the route up to
    its next await. -/
def authorize (s : AccessState) (i : ℕ) (payload : AccessToken) (route : Route) : AccessState :=
  match selectUser s.account.users payload with
  | .error _ => { s with requests := s.requests.eraseIdx i }
  | .ok user =>
    match route with
    | .wsTicket => { s with requests := s.requests.set i (.ticket user.id) }
    | .setUserStatus userId action =>
      { s with
        requests := s.requests.eraseIdx i
        account := readTarget s.account user userId action }
    | .other => { s with requests := s.requests.eraseIdx i }

/-- `WS_TICKET_TTL_SECONDS` (app/api/routes/auth.py:197). -/
def WS_TICKET_TTL_SECONDS : ℤ := 30

/-- The `SET` of `create_ws_ticket` (app/api/routes/auth.py:202-212); `ticket` is
    the random string. -/
def createWsTicket (s : AccessState) (i : ℕ) (user : UUID) (ticket : String) : AccessState :=
  { s with
    tickets := s.tickets.set ticket user.str
      (some (s.account.now + seconds WS_TICKET_TTL_SECONDS))
    requests := s.requests.eraseIdx i
    handedOut := ticket :: s.handedOut }

/-- `Query(..., min_length=16, max_length=64)` and what `getdel` answers
    (app/api/routes/websocket.py:67-75). -/
def redeem (s : AccessState) (ticket : String) : Option UUID :=
  if 16 ≤ ticket.toList.length ∧ ticket.toList.length ≤ 64 then
    (s.tickets.get s.account.now ticket).bind UUID.ofStr
  else none

/-- The `getdel` has deleted the ticket of `user`. -/
def connect (s : AccessState) (ticket : String) (user : UUID) : AccessState :=
  { s with
    tickets := s.tickets.del ticket
    requests := s.requests ++ [.redeemed user] }

/-- `register`, and the loop begins (app/api/routes/websocket.py:78-86). -/
def openSocket (s : AccessState) (i : ℕ) (user : UUID) (connectionId : String) : AccessState :=
  { s with
    presence := register s.presence s.account.now user connectionId
    requests := s.requests.eraseIdx i
    sockets := s.sockets ++ [⟨user, connectionId, true⟩] }

/-- The `finally` of `chat_socket` (app/api/routes/websocket.py:99-101). -/
def closeSocket (s : AccessState) (i : ℕ) (socket : Socket) : AccessState :=
  { s with
    presence := unregister s.presence socket.user socket.connectionId
    sockets := s.sockets.set i { socket with isOpen := false } }

/-- A frame on the `i`-th socket; an exception ends the connection. The socket
    is open as long as the handler runs. -/
def receiveFrame (s : AccessState) (i : ℕ) (socket : Socket) (fresh : NewRow) (frame : Frame) :
    AccessState :=
  let r := handleFrame s.world socket.user socket.connectionId fresh frame
  if r.raised then closeSocket (s.withWorld r.world) i socket else s.withWorld r.world

inductive AccessAction
  /-- logins, the commits of status changes, and the clock -/
  | account (a : AccountAction)
  /-- a request arrives: `get_current_user` up to its query -/
  | decode (creds : Option AccessToken) (route : Route)
  | authorize (i : ℕ)
  | storeTicket (i : ℕ) (ticket : String)
  | redeem (ticket : String)
  | accept (i : ℕ)
  | register (i : ℕ) (connectionId : String)
  /-- a request or a connect is given up -/
  | drop (i : ℕ)
  | frame (i : ℕ) (fresh : NewRow) (fr : Frame)
  | disconnect (i : ℕ)

/-- The open socket at `i`. -/
def AccessState.openAt (s : AccessState) (i : ℕ) : Option Socket :=
  (s.sockets[i]?).filter Socket.isOpen

/-- Tokens are signed: one that was not handed out does not decode. -/
def accessStep (s : AccessState) : AccessAction → Option AccessState
  | .account (.setUserStatus _ _ _) => none
  | .account a => (accountStep s.account a).map fun account => { s with account := account }
  | .decode creds route =>
    if ∀ token ∈ creds, token ∈ s.account.issued then
      match creds.bind (decodeAccessToken · s.account.now) with
      | none => some s
      | some payload => some { s with requests := s.requests ++ [.decoded payload route] }
    else none
  | .authorize i =>
    match s.requests[i]? with
    | some (.decoded payload route) => some (authorize s i payload route)
    | _ => none
  | .storeTicket i ticket =>
    match s.requests[i]? with
    | some (.ticket user) => some (createWsTicket s i user ticket)
    | _ => none
  | .redeem ticket =>
    match redeem s ticket with
    | none => some s
    | some user => some (connect s ticket user)
  | .accept i =>
    match s.requests[i]? with
    | some (.redeemed user) => some { s with requests := s.requests.set i (.accepted user) }
    | _ => none
  | .register i connectionId =>
    match s.requests[i]? with
    | some (.accepted user) => some (openSocket s i user connectionId)
    | _ => none
  | .drop i => (s.requests[i]?).map fun _ => { s with requests := s.requests.eraseIdx i }
  | .frame i fresh fr => (s.openAt i).map fun socket => receiveFrame s i socket fresh fr
  | .disconnect i => (s.openAt i).map fun socket => closeSocket s i socket

/-! ## Acting, and being allowed to -/

/-- The effect reaches Redis. -/
def Effect.isPublish : Effect → Bool
  | .publish _ _ => true
  | _ => false

/-- The action is accepted as an operation of `u`. -/
def Accepts (s : AccessState) (u : UUID) : AccessAction → Prop
  | .authorize i => ∃ payload route row, s.requests[i]? = some (.decoded payload route) ∧
      selectUser s.account.users payload = .ok row ∧ row.id = u
  | .storeTicket i _ => s.requests[i]? = some (.ticket u)
  | .redeem ticket => redeem s ticket = some u
  | .accept i => s.requests[i]? = some (.redeemed u)
  | .register i _ => s.requests[i]? = some (.accepted u)
  | .frame i fresh fr => ∃ socket, s.openAt i = some socket ∧ socket.user = u ∧
      let r := handleFrame s.world socket.user socket.connectionId fresh fr
      r.world.messages ≠ s.messages ∨ ∃ e ∈ r.effects, e.isPublish = true
  | _ => False

/-- The row of `u` is ACTIVE and has not expired. -/
def Lawful (users : Users) (now : Time) (u : UUID) : Prop :=
  ∃ row, users.byId u = some row ∧ row.status = .ACTIVE ∧ row.expired now = false

/-- Whoever acts is allowed to. -/
def ActsOnlyActive (s : AccessState) (a : AccessAction) : Prop :=
  ∀ u, Accepts s u a → Lawful s.account.users s.account.now u

/-! ## What an account may still hold -/

/-- `u` has an open socket, a request or a connect that has been let through, or a
    ticket that can be redeemed at `t`. -/
def Connected (s : AccessState) (u : UUID) (t : Time) : Prop :=
  (∃ socket ∈ s.sockets, socket.isOpen = true ∧ socket.user = u) ∨
    (∃ r ∈ s.requests, r.user = some u) ∨
    ∃ ticket ∈ s.handedOut, ∃ e ∈ s.tickets ticket, e.Live t ∧ e.val = u.str

/-- The tokens that decode at `t`, and those that have been decoded. -/
def AccessState.presentable (s : AccessState) (t : Time) : List AccessToken :=
  s.account.issued.filter (fun token => ¬ token.exp < t / seconds 1) ++
    s.requests.filterMap InFlight.payload

/-- `u` has a token of this version that decodes at `t` or has been decoded. -/
def Usable (s : AccessState) (u : UUID) (version : ℤ) (t : Time) : Prop :=
  ∃ token ∈ s.presentable t, token.sub = u.str ∧ token.ver = version

/-- Nothing is left that would still be accepted: of an account that expires,
    no ticket, no socket, nothing that was let through and no token of the
    current version; of an account that is suspended, no ticket, no socket and
    nothing that was let through, nor, when it has already expired, a token of
    the version the suspension writes. A login commits before the account
    expires. -/
def NothingOutstanding (s : AccessState) : AccessAction → Prop
  | .account (.tick d) => ∀ row ∈ s.account.users,
      row.expired s.account.now = false → row.expired (s.account.now + d) = true →
        ¬ Connected s row.id (s.account.now + d) ∧
          ¬ Usable s row.id row.tokenVersion (s.account.now + d)
  | .account (.verifyCommit i otpOk milOk) => (otpOk && milOk) = true →
      ∀ tx ∈ s.account.txs[i]?, ∀ read ∈ tx.rotates, ∀ row ∈ s.account.users.byId read.id,
        row.expired s.account.now = false
  | .account (.statusCommit i) => ∀ tx ∈ s.account.txs[i]?, ∀ read ∈ tx.rotates,
      ¬ Connected s read.id s.account.now ∧
        ∀ row ∈ s.account.users.byId read.id, row.expired s.account.now = true →
          ¬ Usable s read.id (read.tokenVersion + 1) s.account.now
  | _ => True

instance (s : AccessState) (u : UUID) (t : Time) : Decidable (Connected s u t) := by
  unfold Connected
  infer_instance

instance (s : AccessState) (u : UUID) (version : ℤ) (t : Time) :
    Decidable (Usable s u version t) := by
  unfold Usable
  infer_instance

instance (s : AccessState) : (a : AccessAction) → Decidable (NothingOutstanding s a)
  | .account (.tick _) => by unfold NothingOutstanding; infer_instance
  | .account (.verifyCommit _ _ _) => by unfold NothingOutstanding; infer_instance
  | .account (.statusCommit _) => by unfold NothingOutstanding; infer_instance
  | .account (.verify _) => isTrue trivial
  | .account (.setUserStatus _ _ _) => isTrue trivial
  | .decode _ _ => isTrue trivial
  | .authorize _ => isTrue trivial
  | .storeTicket _ _ => isTrue trivial
  | .redeem _ => isTrue trivial
  | .accept _ => isTrue trivial
  | .register _ _ => isTrue trivial
  | .drop _ => isTrue trivial
  | .frame _ _ _ => isTrue trivial
  | .disconnect _ => isTrue trivial

/-- The user and the administrator log in, and the user opens a socket. -/
def connectedRun : List AccessAction :=
  [.account (.verify sampleLogin), .account (.verifyCommit 0 true true),
    .account (.verify { sampleLogin with phoneNumber := sampleAdmin.phoneNumber }),
    .account (.verifyCommit 0 true true), .decode (some (loginToken sampleUser 0)) .wsTicket,
    .authorize 0, .storeTicket 0 "ticket-of-user-7", .redeem "ticket-of-user-7", .accept 0,
    .register 0 "c7"]

/-- The administrator suspends the user. -/
def suspendRun : List AccessAction :=
  [.decode (some (loginToken sampleAdmin 0)) (.setUserStatus 7 .suspend), .authorize 0,
    .account (.statusCommit 0)]

/-- The socket that was open before the suspension still sends a message. -/
theorem suspended_socket_still_acts :
    ¬ ∀ w as s a s', Takes accessStep (AccessState.init w) as s a s' → ActsOnlyActive s a := by
  intro h
  have hrun : ∃ s ∈ run accessStep (AccessState.init sampleWorld) (connectedRun ++ suspendRun),
      ∃ s' ∈ accessStep s (.frame 0 100 (sampleFrame "text" 1 [("content", .str "hello")])),
        s.openAt 0 = some ⟨7, "c7", true⟩ ∧ s'.messages ≠ s.messages ∧
          (∃ row ∈ s.account.users.byId 7, row.status = .SUSPENDED) ∧
          (handleFrame s.world 7 "c7" 100
            (sampleFrame "text" 1 [("content", .str "hello")])).world.messages = s'.messages := by
    decide +kernel
  obtain ⟨s, hs, s', hs', hopen, hne, ⟨row, hrow, hsusp⟩, hframe⟩ := hrun
  obtain ⟨row', hrow', hactive, -⟩ := h sampleWorld _ s _ s' ⟨_, [], rfl, hs, hs'⟩ 7
    ⟨⟨7, "c7", true⟩, hopen, rfl, .inl (by rw [hframe]; exact hne)⟩
  obtain rfl := Option.some.inj (hrow.symm.trans hrow')
  rw [hactive] at hsusp
  cases hsusp

/-! ## The invariant -/

variable {s s' : AccessState} {u : UUID}

theorem mem_presentable {t : Time} {token : AccessToken} : token ∈ s.presentable t ↔
    (token ∈ s.account.issued ∧ ¬ token.exp < t / seconds 1) ∨
      ∃ r ∈ s.requests, r.payload = some token := by
  unfold AccessState.presentable
  rw [List.mem_append, List.mem_filter, List.mem_filterMap, decide_eq_true_eq]

/-- What holds in every run in which nothing is left outstanding. -/
structure AccessInv (s : AccessState) : Prop where
  signed : ∀ t, ∀ token ∈ s.presentable t, ∃ u : UUID, token.sub = u.str
  sockets : ∀ socket ∈ s.sockets, socket.isOpen = true →
    Lawful s.account.users s.account.now socket.user
  granted : ∀ r ∈ s.requests, ∀ u ∈ r.user, Lawful s.account.users s.account.now u
  tickets : ∀ ticket e, s.tickets ticket = some e → ticket ∈ s.handedOut ∧
    ∃ u : UUID, e.val = u.str ∧
      (e.Live s.account.now → Lawful s.account.users s.account.now u)
  /-- A token that would be accepted belongs to an account that has not expired. -/
  tokens : ∀ u row, s.account.users.byId u = some row →
    Usable s u row.tokenVersion s.account.now → row.expired s.account.now = false

theorem accessInv_init (w : World) : AccessInv (AccessState.init w) := by
  constructor
  · intro t token htoken
    cases htoken
  · intro socket hsocket
    cases hsocket
  · intro r hr
    cases hr
  · intro ticket e he
    cases he
  · rintro u row _ ⟨token, htoken, -⟩
    cases htoken

/-- Someone who is connected at some moment to come may act now. -/
theorem AccessInv.lawful_of_connected (h : AccessInv s) {t : Time} (hle : s.account.now ≤ t)
    (hc : Connected s u t) : Lawful s.account.users s.account.now u := by
  rcases hc with ⟨socket, hmem, hopen, rfl⟩ | ⟨r, hr, hu⟩ | ⟨ticket, -, e, he, hlive, hval⟩
  · exact h.sockets socket hmem hopen
  · exact h.granted r hr u hu
  · obtain ⟨-, v, hv, hlaw⟩ := h.tickets ticket e he
    rw [UUID.str_injective (hval.symm.trans hv)]
    exact hlaw (hlive.mono hle)

/-! ## Whoever is accepted is allowed -/

theorem lawful_of_selectUser (h : AccessInv s) {payload : AccessToken}
    (hpayload : payload ∈ s.presentable s.account.now) {row : User}
    (hok : selectUser s.account.users payload = .ok row) :
    Lawful s.account.users s.account.now row.id := by
  obtain ⟨v, hsub⟩ := h.signed _ payload hpayload
  obtain ⟨hrow, hactive, hver⟩ := selectUser_ok hsub hok
  rw [Users.byId_id hrow]
  exact ⟨row, hrow, hactive, h.tokens v row hrow ⟨payload, hpayload, hsub, hver⟩⟩

theorem presentable_of_getElem {i : ℕ} {payload : AccessToken} {route : Route}
    (h : s.requests[i]? = some (.decoded payload route)) (t : Time) :
    payload ∈ s.presentable t :=
  mem_presentable.mpr (.inr ⟨_, List.mem_of_getElem? h, rfl⟩)

theorem redeem_some {ticket : String} (h : redeem s ticket = some u) :
    ∃ e, s.tickets ticket = some e ∧ e.Live s.account.now ∧ UUID.ofStr e.val = some u := by
  unfold redeem at h
  split_ifs at h
  obtain ⟨val, hget, hval⟩ := Option.bind_eq_some_iff.mp h
  obtain ⟨e, he, hlive, rfl⟩ := TtlMap.get_eq_some.mp hget
  exact ⟨e, he, hlive, hval⟩

theorem lawful_of_redeem (h : AccessInv s) {ticket : String} (hr : redeem s ticket = some u) :
    Lawful s.account.users s.account.now u := by
  obtain ⟨e, he, hlive, hval⟩ := redeem_some hr
  obtain ⟨-, v, hv, hlaw⟩ := h.tickets ticket e he
  rw [hv, UUID.ofStr_str] at hval
  rw [← Option.some.inj hval]
  exact hlaw hlive

theorem openAt_some {i : ℕ} {socket : Socket} (h : s.openAt i = some socket) :
    socket ∈ s.sockets ∧ socket.isOpen = true := by
  obtain ⟨hget, hopen⟩ := Option.filter_eq_some_iff.mp h
  exact ⟨List.mem_of_getElem? hget, hopen⟩

theorem AccessInv.actsOnlyActive (h : AccessInv s) (a : AccessAction) : ActsOnlyActive s a := by
  intro u hacc
  have hgranted : ∀ {i : ℕ} {r : InFlight}, s.requests[i]? = some r → r.user = some u →
      Lawful s.account.users s.account.now u := fun hr hu =>
    h.granted _ (List.mem_of_getElem? hr) u hu
  cases a with
  | account a => cases hacc
  | decode creds route => cases hacc
  | authorize i =>
    obtain ⟨payload, route, row, hrequest, hok, rfl⟩ := hacc
    exact lawful_of_selectUser h (presentable_of_getElem hrequest _) hok
  | storeTicket i ticket => exact hgranted hacc rfl
  | redeem ticket => exact lawful_of_redeem h hacc
  | accept i => exact hgranted hacc rfl
  | register i connectionId => exact hgranted hacc rfl
  | drop i => cases hacc
  | frame i fresh fr =>
    obtain ⟨socket, hopen, rfl, -⟩ := hacc
    obtain ⟨hmem, hisOpen⟩ := openAt_some hopen
    exact h.sockets socket hmem hisOpen
  | disconnect i => cases hacc

/-! ## Each step keeps the invariant -/

/-- `update` changes the row of `id` only, and leaves its expiry date. -/
theorem byId_modify_user {users : Users} {id : UUID} {f : User → User}
    (hid : ∀ row, (f row).id = row.id) {row' : User}
    (h : Users.byId (Table.modify User.id users id f) u = some row') :
    ∃ row, users.byId u = some row ∧ row' = if u = id then f row else row := by
  unfold Users.byId at h
  rw [Table.find_modify hid] at h
  obtain ⟨row, hrow, rfl⟩ := Option.map_eq_some_iff.mp h
  refine ⟨row, hrow, ?_⟩
  rw [Table.find_key hrow]

/-- An update that lets `u` act, if it could before. -/
theorem Lawful.modify {users : Users} {now : Time} {id : UUID} {f : User → User}
    (h : Lawful users now u) (hid : ∀ row, (f row).id = row.id)
    (hf : u = id → ∀ row ∈ users.byId u, row.status = .ACTIVE →
      (f row).status = .ACTIVE ∧ (f row).expired now = row.expired now) :
    Lawful (Table.modify User.id users id f) now u := by
  obtain ⟨row, hrow, hactive, hexp⟩ := h
  by_cases hu : u = id
  · obtain ⟨hstatus, hsame⟩ := hf hu row hrow hactive
    refine ⟨f row, ?_, hstatus, hsame.trans hexp⟩
    unfold Users.byId at *
    rw [hu, Table.find_modify_self hid, ← hu, hrow]
    rfl
  · refine ⟨row, ?_, hactive, hexp⟩
    unfold Users.byId at *
    rw [Table.find_modify_of_ne hid _ hu]
    exact hrow

/-- The rows, the clock and the tickets stay; what is in flight, and the sockets
    that are open, were so before, or their users may act. -/
theorem AccessInv.congr (h : AccessInv s) (hnow : s'.account.now = s.account.now)
    (husers : s'.account.users = s.account.users) (hhist : s'.account.history = s.account.history)
    (htickets : s'.tickets = s.tickets) (hout : s'.handedOut = s.handedOut)
    (hrequests : ∀ r ∈ s'.requests, r ∈ s.requests ∨ (r.payload = none ∧
      ∀ u ∈ r.user, Lawful s.account.users s.account.now u))
    (hsockets : ∀ socket ∈ s'.sockets, socket.isOpen = true → socket ∈ s.sockets ∨
      Lawful s.account.users s.account.now socket.user) :
    AccessInv s' := by
  have hpresentable : ∀ t, ∀ token ∈ s'.presentable t, token ∈ s.presentable t := by
    intro t token htoken
    rw [mem_presentable] at htoken ⊢
    unfold AccountState.issued at *
    rw [hhist] at htoken
    refine htoken.imp_right fun ⟨r, hr, hp⟩ => ?_
    obtain hold | ⟨hnone, -⟩ := hrequests r hr
    · exact ⟨r, hold, hp⟩
    · rw [hnone] at hp
      cases hp
  refine ⟨fun t token htoken => h.signed t token (hpresentable t token htoken), ?_, ?_, ?_, ?_⟩
  · intro socket hsocket hopen
    rw [husers, hnow]
    exact (hsockets socket hsocket hopen).elim (h.sockets socket · hopen) id
  · intro r hr u hu
    rw [husers, hnow]
    exact (hrequests r hr).elim (h.granted r · u hu) fun hlaw => hlaw.2 u hu
  · rw [husers, hnow, htickets, hout]
    exact h.tickets
  · rintro u row hrow ⟨token, htoken, hcarries⟩
    rw [husers] at hrow
    rw [hnow] at htoken ⊢
    exact h.tokens u row hrow ⟨token, hpresentable _ token htoken, hcarries⟩

/-- Only the rows, the history and the clock matter of the account state. -/
theorem AccessInv.account_congr (h : AccessInv s) {account : AccountState}
    (hnow : account.now = s.account.now) (husers : account.users = s.account.users)
    (hhist : account.history = s.account.history) : AccessInv { s with account := account } :=
  h.congr hnow husers hhist rfl rfl (fun _ => .inl) fun _ hsocket _ => .inl hsocket

/-- What a commit that is recorded issues. -/
theorem issued_of_recorded {t t' : AccountState} {record : Committed}
    (hhist : t'.history = record :: t.history) {token : AccessToken} (htoken : token ∈ t'.issued) :
    token ∈ t.issued ∨ ∃ u, record = .login u token := by
  unfold AccountState.issued at htoken
  rw [hhist] at htoken
  cases record with
  | login u token' =>
    obtain rfl | hold := List.mem_cons.mp htoken
    · exact .inr ⟨u, rfl⟩
    · exact .inl hold
  | suspend u => exact .inl htoken
  | activate u => exact .inl htoken

theorem presentable_of_recorded {account : AccountState} {record : Committed}
    (hhist : account.history = record :: s.account.history) {t : Time} {token : AccessToken}
    (htoken : token ∈ AccessState.presentable { s with account := account } t) :
    token ∈ s.presentable t ∨ ∃ u, record = .login u token := by
  rw [mem_presentable] at htoken ⊢
  rcases htoken with ⟨hissue, hfresh⟩ | hrequest
  · exact (issued_of_recorded hhist hissue).imp_left fun hold => .inl ⟨hold, hfresh⟩
  · exact .inl (.inr hrequest)

/-- No token of an expired account is current after a commit that keeps the version of
    an expired row, or gives it one that no token carries. -/
theorem AccessInv.tokens_commit (h : AccessInv s) {account : AccountState} {id : UUID}
    {f : User → User} {record : Committed}
    (husers : account.users = Table.modify User.id s.account.users id f)
    (hhist : account.history = record :: s.account.history) (hid : ∀ row, (f row).id = row.id)
    (hexpired : ∀ row, (f row).expired s.account.now = row.expired s.account.now)
    (hsub : ∀ u token, record = .login u token → token.sub = id.str)
    (htok : ∀ row ∈ s.account.users.byId id, row.expired s.account.now = true →
      ((f row).tokenVersion = row.tokenVersion ∨
        ¬ Usable s id (f row).tokenVersion s.account.now) ∧ ∀ u token, record ≠ .login u token)
    {row' : User} (hrow' : account.users.byId u = some row')
    (husable : Usable { s with account := account } u row'.tokenVersion s.account.now) :
    row'.expired s.account.now = false := by
  obtain ⟨token, htoken, hsubu, hver⟩ := husable
  rw [husers] at hrow'
  obtain ⟨row, hrow, rfl⟩ := byId_modify_user hid hrow'
  rcases presentable_of_recorded hhist htoken with hold | ⟨w, rfl⟩
  · split_ifs at hver ⊢ with hu
    · subst hu
      rw [hexpired]
      by_contra hexp
      rcases (htok row hrow (by simpa using hexp)).1 with hsame | hnone
      · rw [hsame] at hver
        rw [h.tokens u row hrow ⟨token, hold, hsubu, hver⟩] at hexp
        exact hexp rfl
      · exact hnone ⟨token, hold, hsubu, hver⟩
    · exact h.tokens u row hrow ⟨token, hold, hsubu, hver⟩
  · -- the token has just been handed out
    have hu : u = id := UUID.str_injective (hsubu.symm.trans (hsub w token rfl))
    rw [if_pos hu, hexpired]
    subst hu
    by_contra hexp
    exact (htok row hrow (by simpa using hexp)).2 w token rfl

/-- A commit keeps the invariant, when no one it stops from acting is still
    connected, and no token it makes current belongs to an expired account. -/
theorem AccessInv.commit (h : AccessInv s) {i : ℕ} {id : UUID} {f : User → User}
    {record : Committed} (hid : ∀ row, (f row).id = row.id)
    (hexp : ∀ row, (f row).expiryDate = row.expiryDate)
    (hlaw : ∀ row ∈ s.account.users.byId id, row.status = .ACTIVE → Connected s id s.account.now →
      (f row).status = .ACTIVE)
    (hsub : ∀ u token, record = .login u token → token.sub = id.str)
    (htok : ∀ row ∈ s.account.users.byId id, row.expired s.account.now = true →
      ((f row).tokenVersion = row.tokenVersion ∨
        ¬ Usable s id (f row).tokenVersion s.account.now) ∧ ∀ u token, record ≠ .login u token) :
    AccessInv { s with account := s.account.commit i id f record } := by
  obtain ⟨hnow, ⟨husers, hhist⟩ | ⟨husers, hhist⟩⟩ := commit_cases s.account i id f record
  · exact h.account_congr hnow husers hhist
  · have hexpired : ∀ row, (f row).expired s.account.now = row.expired s.account.now := by
      intro row
      unfold User.expired
      rw [hexp]
    have hmodify : ∀ v, Connected s v s.account.now ∨ v ≠ id →
        Lawful s.account.users s.account.now v →
        Lawful (s.account.commit i id f record).users (s.account.commit i id f record).now v := by
      intro v hv hlawful
      rw [hnow, husers]
      refine hlawful.modify hid ?_
      rintro rfl row hrow hactive
      rcases hv with hv | hv
      · exact ⟨hlaw row hrow hactive hv, hexpired row⟩
      · exact absurd rfl hv
    refine ⟨?_, ?_, ?_, ?_, ?_⟩
    · intro t token htoken
      rcases presentable_of_recorded hhist htoken with htoken | ⟨u, rfl⟩
      · exact h.signed t token htoken
      · exact ⟨id, hsub u token rfl⟩
    · intro socket hmem hopen
      exact hmodify _ (.inl (.inl ⟨socket, hmem, hopen, rfl⟩)) (h.sockets socket hmem hopen)
    · intro r hr u hu
      exact hmodify _ (.inl (.inr (.inl ⟨r, hr, hu⟩))) (h.granted r hr u hu)
    · intro ticket e he
      obtain ⟨hout, v, hv, hlawful⟩ := h.tickets ticket e he
      refine ⟨hout, v, hv, fun hlive => ?_⟩
      have hlive' : e.Live s.account.now := hnow ▸ hlive
      exact hmodify v (.inl (.inr (.inr ⟨ticket, hout, e, he, hlive', hv⟩))) (hlawful hlive')
    · intro v row' hrow' husable
      change Usable _ _ _ (s.account.commit i id f record).now at husable
      show row'.expired (s.account.commit i id f record).now = false
      rw [hnow] at husable ⊢
      exact h.tokens_commit husers hhist hid hexpired hsub htok hrow' husable

theorem accessInv_login (h : AccessInv s) {i : ℕ} {read : User} {body : VerifyIn}
    (hfresh : ∀ row ∈ s.account.users.byId read.id, row.expired s.account.now = false) :
    AccessInv { s with
      account := s.account.commit i read.id (loginColumns read body s.account.now)
        (.login read.id (loginToken read s.account.now)) } := by
  refine h.commit (loginColumns_id read body _) (fun row => rfl) ?_ ?_ ?_
  · intro row _ hactive _
    exact hactive
  · intro u token hrec
    rw [← (Committed.login.inj hrec).2]
    rfl
  · intro row hrow hexp
    rw [hfresh row hrow] at hexp
    cases hexp

theorem accessInv_suspend (h : AccessInv s) {i : ℕ} {read : User}
    (hconn : ¬ Connected s read.id s.account.now)
    (huse : ∀ row ∈ s.account.users.byId read.id, row.expired s.account.now = true →
      ¬ Usable s read.id (read.tokenVersion + 1) s.account.now) :
    AccessInv { s with
      account := s.account.commit i read.id (statusColumns read .suspend) (.suspend read.id) } := by
  refine h.commit (statusColumns_id read .suspend) (fun row => rfl) ?_ ?_ ?_
  · intro row _ _ hc
    exact absurd hc hconn
  · intro u token hrec
    cases hrec
  · intro row hrow hexp
    refine ⟨.inr (huse row hrow hexp), ?_⟩
    intro u token hrec
    cases hrec

theorem accessInv_activate (h : AccessInv s) {i : ℕ} {read : User} :
    AccessInv { s with
      account :=
        s.account.commit i read.id (statusColumns read .activate) (.activate read.id) } := by
  refine h.commit (statusColumns_id read .activate) (fun row => rfl) ?_ ?_ ?_
  · intro row _ hactive _
    show (if read.status = .ACTIVE then row.status else .ACTIVE) = .ACTIVE
    split_ifs
    · exact hactive
    · rfl
  · intro u token hrec
    cases hrec
  · intro row _ _
    refine ⟨.inl rfl, ?_⟩
    intro u token hrec
    cases hrec

theorem seconds_div_mono {t t' : Time} (h : t ≤ t') : t / seconds 1 ≤ t' / seconds 1 :=
  Int.ediv_le_ediv (by decide) h

/-- A token that can be used at a later moment can be used now. -/
theorem Usable.mono {version : ℤ} {t t' : Time} (h : Usable s u version t') (hle : t ≤ t') :
    Usable s u version t := by
  obtain ⟨token, htoken, hcarries⟩ := h
  refine ⟨token, ?_, hcarries⟩
  rw [mem_presentable] at htoken ⊢
  exact htoken.imp_left fun ⟨hissued, hlive⟩ =>
    ⟨hissued, fun hlt => hlive (hlt.trans_le (seconds_div_mono hle))⟩

/-- Time that passes stops no account that still holds something. -/
theorem accessInv_tick (h : AccessInv s) (d : ℕ)
    (hg : NothingOutstanding s (.account (.tick d))) :
    AccessInv { s with account := { s.account with now := s.account.now + d } } := by
  have hle : s.account.now ≤ s.account.now + d := by simp
  have hlaw : ∀ v, Connected s v (s.account.now + d) →
      Lawful s.account.users (s.account.now + d) v := by
    intro v hc
    obtain ⟨row, hrow, hactive, hexp⟩ := h.lawful_of_connected hle hc
    refine ⟨row, hrow, hactive, ?_⟩
    by_contra hexp'
    have hid := Users.byId_id hrow
    have := (hg row (Table.find_mem hrow) hexp (by simpa using hexp')).1
    rw [hid] at this
    exact this hc
  refine ⟨h.signed, ?_, ?_, ?_, ?_⟩
  · intro socket hmem hopen
    exact hlaw _ (.inl ⟨socket, hmem, hopen, rfl⟩)
  · intro r hr u hu
    exact hlaw u (.inr (.inl ⟨r, hr, hu⟩))
  · intro ticket e he
    obtain ⟨hout, v, hv, -⟩ := h.tickets ticket e he
    refine ⟨hout, v, hv, ?_⟩
    intro hlive
    exact hlaw v (.inr (.inr ⟨ticket, hout, e, he, hlive, hv⟩))
  · rintro v row hrow huse
    change Usable s v row.tokenVersion (s.account.now + d) at huse
    have hexp := h.tokens v row hrow (huse.mono hle)
    by_contra hexp'
    have hid := Users.byId_id hrow
    have := (hg row (Table.find_mem hrow) hexp (by simpa using hexp')).2
    rw [hid] at this
    exact this huse

theorem accessInv_account (h : AccessInv s) {a : AccountAction}
    (hg : NothingOutstanding s (.account a)) {account : AccountState}
    (hs : accountStep s.account a = some account) : AccessInv { s with account := account } := by
  cases a with
  | verify body =>
    simp only [accountStep] at hs
    split at hs <;> obtain rfl := Option.some.inj hs <;> exact h.account_congr rfl rfl rfl
  | verifyCommit i otpOk milOk =>
    simp only [accountStep] at hs
    split at hs
    · rename_i read body htx
      split_ifs at hs with hok <;> obtain rfl := Option.some.inj hs
      · exact accessInv_login h (hg hok _ htx read rfl)
      · exact h.account_congr rfl rfl rfl
    · cases hs
  | setUserStatus creds userId action =>
    simp only [accountStep] at hs
    split at hs <;> obtain rfl := Option.some.inj hs <;> exact h.account_congr rfl rfl rfl
  | statusCommit i =>
    simp only [accountStep] at hs
    split at hs
    · rename_i read htx
      obtain rfl := Option.some.inj hs
      obtain ⟨hconn, huse⟩ := hg _ htx read rfl
      exact accessInv_suspend h hconn huse
    · obtain rfl := Option.some.inj hs
      exact accessInv_activate h
    · cases hs
  | tick d =>
    obtain rfl := Option.some.inj hs
    exact accessInv_tick h d hg

theorem mem_of_mem_set {i : ℕ} {r r' : InFlight} (h : r ∈ s.requests.set i r') :
    r ∈ s.requests ∨ r = r' := List.mem_or_eq_of_mem_set h

theorem readTarget_account (account : AccountState) (user : User) (userId : UUID)
    (action : StatusAction) :
    (readTarget account user userId action).now = account.now ∧
      (readTarget account user userId action).users = account.users ∧
      (readTarget account user userId action).history = account.history := by
  unfold readTarget
  split
  · exact ⟨rfl, rfl, rfl⟩
  · split <;> exact ⟨rfl, rfl, rfl⟩

/-- A token that decodes was among those that would. -/
theorem accessInv_decode (h : AccessInv s) {token : AccessToken}
    (htoken : token ∈ s.account.issued) (hlive : ¬ token.exp < s.account.now / seconds 1)
    (route : Route) : AccessInv { s with requests := s.requests ++ [.decoded token route] } := by
  have hpresentable : ∀ t ≤ s.account.now, ∀ payload ∈ AccessState.presentable
      { s with requests := s.requests ++ [.decoded token route] } t,
      payload ∈ s.presentable t := by
    intro t ht payload hpayload
    rw [mem_presentable] at hpayload ⊢
    refine hpayload.elim .inl fun ⟨r, hr, hp⟩ => ?_
    obtain hr | hr := List.mem_append.mp hr
    · exact .inr ⟨r, hr, hp⟩
    · obtain rfl := List.mem_singleton.mp hr
      obtain rfl := Option.some.inj hp
      exact .inl ⟨htoken, fun hlt => hlive (hlt.trans_le (seconds_div_mono ht))⟩
  have hsigned : ∃ u : UUID, token.sub = u.str :=
    h.signed s.account.now token (mem_presentable.mpr (.inl ⟨htoken, hlive⟩))
  refine ⟨?_, h.sockets, ?_, h.tickets, ?_⟩
  · intro t payload hpayload
    rw [mem_presentable] at hpayload
    rcases hpayload with hissued | ⟨r, hr, hp⟩
    · exact h.signed t payload (mem_presentable.mpr (.inl hissued))
    · obtain hr | hr := List.mem_append.mp hr
      · exact h.signed t payload (mem_presentable.mpr (.inr ⟨r, hr, hp⟩))
      · obtain rfl := List.mem_singleton.mp hr
        obtain rfl := Option.some.inj hp
        exact hsigned
  · intro r hr
    obtain hr | hr := List.mem_append.mp hr
    · exact h.granted r hr
    · obtain rfl := List.mem_singleton.mp hr
      exact fun u hu => by cases hu
  · rintro u row hrow ⟨payload, hpayload, hcarries⟩
    exact h.tokens u row hrow ⟨payload, hpresentable _ le_rfl payload hpayload, hcarries⟩

theorem accessInv_authorize (h : AccessInv s) {i : ℕ} {payload : AccessToken} {route : Route}
    (hrequest : s.requests[i]? = some (.decoded payload route)) :
    AccessInv (authorize s i payload route) := by
  have herase : AccessInv { s with requests := s.requests.eraseIdx i } :=
    h.congr rfl rfl rfl rfl rfl (fun _ hr => .inl (List.mem_of_mem_eraseIdx hr))
      fun _ hsocket _ => .inl hsocket
  unfold authorize
  cases hok : selectUser s.account.users payload with
  | error e => exact herase
  | ok user =>
    cases route with
    | wsTicket =>
      refine h.congr rfl rfl rfl rfl rfl (fun r hr => ?_) fun _ hsocket _ => .inl hsocket
      refine (mem_of_mem_set hr).imp_right ?_
      rintro rfl
      refine ⟨rfl, fun u hu => ?_⟩
      obtain rfl := Option.some.inj hu
      exact lawful_of_selectUser h (presentable_of_getElem hrequest _) hok
    | setUserStatus userId action =>
      obtain ⟨hnow, husers, hhist⟩ := readTarget_account s.account user userId action
      exact herase.account_congr hnow husers hhist
    | other => exact herase

theorem accessInv_createWsTicket (h : AccessInv s) {i : ℕ} (ticket : String)
    (hrequest : s.requests[i]? = some (.ticket u)) : AccessInv (createWsTicket s i u ticket) := by
  have hlaw : Lawful s.account.users s.account.now u :=
    h.granted _ (List.mem_of_getElem? hrequest) u rfl
  have herase : AccessInv { s with requests := s.requests.eraseIdx i } :=
    h.congr rfl rfl rfl rfl rfl (fun _ hr => .inl (List.mem_of_mem_eraseIdx hr))
      fun _ hsocket _ => .inl hsocket
  refine ⟨herase.signed, herase.sockets, herase.granted, ?_, herase.tokens⟩
  intro k e he
  change s.tickets.set ticket u.str _ k = some e at he
  by_cases hk : k = ticket
  · subst hk
    rw [TtlMap.set_self] at he
    rw [← Option.some.inj he]
    exact ⟨List.mem_cons_self, u, rfl, fun _ => hlaw⟩
  · rw [TtlMap.set_of_ne hk] at he
    obtain ⟨hout, hrest⟩ := h.tickets k e he
    exact ⟨List.mem_cons_of_mem _ hout, hrest⟩

theorem accessInv_connect (h : AccessInv s) {ticket : String} (hr : redeem s ticket = some u) :
    AccessInv (connect s ticket u) := by
  have hlaw : Lawful s.account.users s.account.now u := lawful_of_redeem h hr
  have happend : AccessInv { s with requests := s.requests ++ [.redeemed u] } := by
    refine h.congr rfl rfl rfl rfl rfl (fun r hr => ?_) fun _ hsocket _ => .inl hsocket
    refine (List.mem_append.mp hr).imp_right fun hnew => ?_
    obtain rfl := List.mem_singleton.mp hnew
    refine ⟨rfl, fun v hv => ?_⟩
    obtain rfl := Option.some.inj hv
    exact hlaw
  refine ⟨happend.signed, happend.sockets, happend.granted, ?_, happend.tokens⟩
  intro k e he
  change s.tickets.del ticket k = some e at he
  by_cases hk : k = ticket
  · subst hk
    rw [TtlMap.del_self] at he
    cases he
  · rw [TtlMap.del_of_ne hk] at he
    exact h.tickets k e he

theorem accessInv_openSocket (h : AccessInv s) {i : ℕ} (connectionId : String)
    (hrequest : s.requests[i]? = some (.accepted u)) :
    AccessInv (openSocket s i u connectionId) := by
  refine h.congr rfl rfl rfl rfl rfl (fun _ hr => .inl (List.mem_of_mem_eraseIdx hr)) ?_
  intro socket hmem _
  refine (List.mem_append.mp hmem).imp_right fun hnew => ?_
  obtain rfl := List.mem_singleton.mp hnew
  exact h.granted _ (List.mem_of_getElem? hrequest) u rfl

theorem accessInv_closeSocket (h : AccessInv s) (i : ℕ) (socket : Socket) :
    AccessInv (closeSocket s i socket) := by
  refine h.congr rfl rfl rfl rfl rfl (fun _ => .inl) ?_
  intro x hx hopen
  rcases List.mem_or_eq_of_mem_set hx with hx | rfl
  · exact .inl hx
  · cases hopen

theorem accessInv_receiveFrame (h : AccessInv s) (i : ℕ) (socket : Socket) (fresh : NewRow)
    (fr : Frame) : AccessInv (receiveFrame s i socket fresh fr) := by
  have hworld : ∀ w, AccessInv (s.withWorld w) := fun w =>
    h.congr rfl rfl rfl rfl rfl (fun _ => .inl) fun _ hx _ => .inl hx
  unfold receiveFrame
  simp only
  split_ifs
  · exact accessInv_closeSocket (hworld _) i socket
  · exact hworld _

theorem accessStep_account {a : AccountAction} (hs : accessStep s (.account a) = some s') :
    ∃ account, accountStep s.account a = some account ∧ s' = { s with account := account } := by
  have hmap : (accountStep s.account a).map (fun account => { s with account := account }) =
      some s' := by
    cases a with
    | setUserStatus creds userId action => cases hs
    | verify body => exact hs
    | verifyCommit i otpOk milOk => exact hs
    | statusCommit i => exact hs
    | tick d => exact hs
  obtain ⟨account, haccount, rfl⟩ := Option.map_eq_some_iff.mp hmap
  exact ⟨account, haccount, rfl⟩

theorem accessInv_step (s : AccessState) (a : AccessAction) (s' : AccessState) (h : AccessInv s)
    (hg : NothingOutstanding s a) (hs : accessStep s a = some s') : AccessInv s' := by
  cases a with
  | account a =>
    obtain ⟨account, haccount, rfl⟩ := accessStep_account hs
    exact accessInv_account h hg haccount
  | decode creds route =>
    simp only [accessStep] at hs
    split_ifs at hs with hcreds
    split at hs <;> obtain rfl := Option.some.inj hs
    · exact h
    · rename_i payload hdecoded
      obtain ⟨token, htoken, hpayload⟩ := Option.bind_eq_some_iff.mp hdecoded
      unfold decodeAccessToken at hpayload
      split_ifs at hpayload with hexp
      obtain rfl := Option.some.inj hpayload
      exact accessInv_decode h (hcreds _ htoken) hexp route
  | authorize i =>
    simp only [accessStep] at hs
    split at hs
    · rename_i payload route hrequest
      obtain rfl := Option.some.inj hs
      exact accessInv_authorize h hrequest
    · cases hs
  | storeTicket i ticket =>
    simp only [accessStep] at hs
    split at hs
    · rename_i user hrequest
      obtain rfl := Option.some.inj hs
      exact accessInv_createWsTicket h ticket hrequest
    · cases hs
  | redeem ticket =>
    simp only [accessStep] at hs
    split at hs <;> obtain rfl := Option.some.inj hs
    · exact h
    · rename_i user hr
      exact accessInv_connect h hr
  | accept i =>
    simp only [accessStep] at hs
    split at hs
    · rename_i user hrequest
      obtain rfl := Option.some.inj hs
      refine h.congr rfl rfl rfl rfl rfl (fun r hr => ?_) fun _ hsocket _ => .inl hsocket
      refine (mem_of_mem_set hr).imp_right ?_
      rintro rfl
      exact ⟨rfl, fun u hu => h.granted _ (List.mem_of_getElem? hrequest) u hu⟩
    · cases hs
  | register i connectionId =>
    simp only [accessStep] at hs
    split at hs
    · rename_i user hrequest
      obtain rfl := Option.some.inj hs
      exact accessInv_openSocket h connectionId hrequest
    · cases hs
  | drop i =>
    obtain ⟨r, -, rfl⟩ := Option.map_eq_some_iff.mp hs
    exact h.congr rfl rfl rfl rfl rfl (fun _ hr => .inl (List.mem_of_mem_eraseIdx hr))
      fun _ hsocket _ => .inl hsocket
  | frame i fresh fr =>
    obtain ⟨socket, -, rfl⟩ := Option.map_eq_some_iff.mp hs
    exact accessInv_receiveFrame h i socket fresh fr
  | disconnect i =>
    obtain ⟨socket, -, rfl⟩ := Option.map_eq_some_iff.mp hs
    exact accessInv_closeSocket h i socket

/-- **Only active accounts act.** In every run in which no account is suspended
    or expires while something of it is still outstanding. -/
theorem acts_only_active_of_nothingOutstanding (w : World) (as : List AccessAction)
    (s : AccessState) (a : AccessAction) (s' : AccessState)
    (hg : Guarded accessStep NothingOutstanding (AccessState.init w) as)
    (ht : Takes accessStep (AccessState.init w) as s a s') : ActsOnlyActive s a := by
  obtain ⟨hinv, -⟩ := hg.at_step accessInv_step (accessInv_init w) ht
  exact hinv.actsOnlyActive a

/-- The user closes the socket before the suspension, and sends a request with the
    old token after it. -/
def disconnectedRun : List AccessAction :=
  connectedRun ++ .disconnect 0 :: suspendRun ++ [.decode (some (loginToken sampleUser 0)) .other]

theorem acts_only_active_after_disconnect :
    ∃ s ∈ run accessStep (AccessState.init sampleWorld) disconnectedRun,
      (∃ row ∈ s.account.users.byId 7, row.status = .SUSPENDED) ∧
        ActsOnlyActive s (.authorize 0) := by
  have hrun : ∃ s ∈ run accessStep (AccessState.init sampleWorld) disconnectedRun,
      (∃ row ∈ s.account.users.byId 7, row.status = .SUSPENDED) ∧
        (accessStep s (.authorize 0)).isSome = true := by
    decide +kernel
  obtain ⟨s, hs, hsusp, hsome⟩ := hrun
  obtain ⟨s', hs'⟩ := Option.isSome_iff_exists.mp hsome
  refine ⟨s, hs, hsusp, ?_⟩
  exact acts_only_active_of_nothingOutstanding sampleWorld (disconnectedRun ++ [.authorize 0])
    s _ s' (by decide +kernel) ⟨_, [], rfl, hs, hs'⟩

end IronLink.Ws
