import IronLink.Lib.Calls
import IronLink.Ws.Access

/-!
# One-time tickets

`create_ws_ticket` (app/api/routes/auth.py:197-212) hands out a random string for the query of
`/ws/chat`; `chat_socket` (app/api/routes/websocket.py:67-75) redeems it with `getdel`. Over the
runs of `Access`, with what has been handed out and what has been redeemed on record.

Results:
* `tickets_open_once`: while no random string is drawn twice, a ticket is redeemed if and only if it
  was handed out less than 30 seconds ago and has not been; the socket it opens is its owner's.
* `reused_draw_opens_twice`: a string drawn twice is redeemed twice.
-/

namespace IronLink.Ws

open Lib Auth Messages

/-! ## Model -/

/-- A ticket, its user, and when it was handed out or redeemed. -/
structure TicketUse where
  ticket : String
  user : UUID
  time : Time
  deriving DecidableEq

/-- The user of a connect that has redeemed its ticket. -/
def InFlight.connects : InFlight → Option UUID
  | .redeemed user => some user
  | .accepted user => some user
  | _ => none

/-- The server; `granted`, `redeemed` and `lost`, oldest first, record the history. `lost` are the
    users of the connects that were given up after `getdel`. -/
structure TicketState where
  access : AccessState
  granted : List TicketUse
  redeemed : List TicketUse
  lost : List UUID

def TicketState.init (w : World) : TicketState := ⟨.init w, [], [], []⟩

/-- The ticket that an action hands out. -/
def grants (s : AccessState) : AccessAction → List TicketUse
  | .storeTicket i ticket =>
    match s.requests[i]? with
    | some (.ticket user) => [⟨ticket, user, s.account.now⟩]
    | _ => []
  | _ => []

/-- The ticket that an action redeems. -/
def redemptions (s : AccessState) : AccessAction → List TicketUse
  | .redeem ticket =>
    match redeem s ticket with
    | none => []
    | some user => [⟨ticket, user, s.account.now⟩]
  | _ => []

/-- The connect that an action gives up. -/
def losses (s : AccessState) : AccessAction → List UUID
  | .drop i => (s.requests[i]?.bind InFlight.connects).toList
  | _ => []

def ticketStep (s : TicketState) (a : AccessAction) : Option TicketState :=
  (accessStep s.access a).map fun access =>
    ⟨access, s.granted ++ grants s.access a, s.redeemed ++ redemptions s.access a,
      s.lost ++ losses s.access a⟩

/-- `secrets.token_urlsafe` draws no string twice. -/
def FreshDraw (s : TicketState) : AccessAction → Prop
  | .storeTicket _ ticket => ticket ∉ s.access.handedOut
  | _ => True

instance (s : TicketState) : (a : AccessAction) → Decidable (FreshDraw s a)
  | .storeTicket _ _ => inferInstanceAs (Decidable (¬ _))
  | .account _ => isTrue trivial
  | .decode _ _ => isTrue trivial
  | .authorize _ => isTrue trivial
  | .redeem _ => isTrue trivial
  | .accept _ => isTrue trivial
  | .register _ _ => isTrue trivial
  | .drop _ => isTrue trivial
  | .frame _ _ _ => isTrue trivial
  | .disconnect _ => isTrue trivial

/-! ## Properties -/

/-- The ticket was handed out less than 30 seconds ago, and has not been redeemed. -/
def TicketState.Valid (s : TicketState) (ticket : String) (u : UUID) : Prop :=
  ∃ g ∈ s.granted, g.ticket = ticket ∧ g.user = u ∧
    s.access.account.now < g.time + seconds WS_TICKET_TTL_SECONDS ∧
    ticket ∉ s.redeemed.map TicketUse.ticket

/-- The redemption `r` is of a ticket of the same user that was not 30 seconds old. -/
def TicketState.Covered (s : TicketState) (r : TicketUse) : Prop :=
  ∃ g ∈ s.granted, g.ticket = r.ticket ∧ g.user = r.user ∧ g.time ≤ r.time ∧
    r.time < g.time + seconds WS_TICKET_TTL_SECONDS

/-- The users of the sockets that were ever opened, of the connects that are to open one, and of
    those that were given up. -/
def TicketState.connected (s : TicketState) : List UUID :=
  s.access.sockets.map Socket.user ++ (s.access.requests.filterMap InFlight.connects ++ s.lost)

/-- Every socket has been opened by a ticket of its own. -/
structure OpensOnce (s : TicketState) : Prop where
  /-- what would open a socket now -/
  opens : ∀ ticket u, redeem s.access ticket = some u ↔
    16 ≤ ticket.toList.length ∧ ticket.toList.length ≤ 64 ∧ s.Valid ticket u
  once : (s.redeemed.map TicketUse.ticket).Nodup
  covered : ∀ r ∈ s.redeemed, s.Covered r
  sockets : s.connected.Perm (s.redeemed.map TicketUse.user)

/-! ## The invariant -/

variable {s s' : TicketState} {a : AccessAction}

/-- What holds in every run with fresh draws. -/
structure TicketInv (s : TicketState) : Prop where
  handedOut : ∀ ticket, ticket ∈ s.access.handedOut ↔ ticket ∈ s.granted.map TicketUse.ticket
  granted : (s.granted.map TicketUse.ticket).Nodup
  past : ∀ g ∈ s.granted, g.time ≤ s.access.account.now
  /-- `ws:ticket:*` holds the tickets that have not been redeemed. -/
  stored : ∀ ticket e, s.access.tickets ticket = some e ↔
    ∃ g ∈ s.granted, g.ticket = ticket ∧ ticket ∉ s.redeemed.map TicketUse.ticket ∧
      e = ⟨g.user.str, some (g.time + seconds WS_TICKET_TTL_SECONDS)⟩
  once : (s.redeemed.map TicketUse.ticket).Nodup
  covered : ∀ r ∈ s.redeemed, s.Covered r
  sockets : s.connected.Perm (s.redeemed.map TicketUse.user)

theorem ticketInv_init (w : World) : TicketInv (TicketState.init w) where
  handedOut := fun _ => Iff.rfl
  granted := .nil
  past := fun _ h => absurd h List.not_mem_nil
  stored := fun _ _ => iff_of_false (Option.some_ne_none _).symm
    fun ⟨_, h, _⟩ => absurd h List.not_mem_nil
  once := .nil
  covered := fun _ h => absurd h List.not_mem_nil
  sockets := .nil

/-- What `getdel` finds. -/
theorem TicketInv.get_iff (h : TicketInv s) (ticket : String) (u : UUID) :
    (s.access.tickets.get s.access.account.now ticket).bind UUID.ofStr = some u ↔
      s.Valid ticket u := by
  rw [Option.bind_eq_some_iff]
  constructor
  · rintro ⟨raw, hget, hu⟩
    obtain ⟨e, he, hlive, rfl⟩ := TtlMap.get_eq_some.mp hget
    obtain ⟨g, hg, hticket, hnot, rfl⟩ := (h.stored ticket e).mp he
    have huser : g.user = u := by
      rw [UUID.ofStr_str] at hu
      exact Option.some.inj hu
    exact ⟨g, hg, hticket, huser, (Entry.live_of_deadline rfl).mp hlive, hnot⟩
  · rintro ⟨g, hg, hticket, huser, hlive, hnot⟩
    refine ⟨g.user.str, TtlMap.get_eq_some.mpr ⟨_, (h.stored ticket _).mpr
      ⟨g, hg, hticket, hnot, rfl⟩, (Entry.live_of_deadline rfl).mpr hlive, rfl⟩, ?_⟩
    rw [UUID.ofStr_str, huser]

theorem TicketInv.opensOnce (h : TicketInv s) : OpensOnce s where
  opens := fun ticket u => by
    unfold redeem
    split_ifs with hlen
    · rw [h.get_iff]
      exact ⟨fun hv => ⟨hlen.1, hlen.2, hv⟩, fun hv => hv.2.2⟩
    · exact ⟨False.elim, fun hv => hlen ⟨hv.1, hv.2.1⟩⟩
  once := h.once
  covered := h.covered
  sockets := h.sockets

/-! ## Each step keeps the invariant -/

/-- A request that goes on for the same connect, or for none. -/
theorem connects_set {t : AccessState} {i : ℕ} {r r' : InFlight} (hr : t.requests[i]? = some r)
    (hsame : r'.connects = r.connects) :
    ((t.requests.set i r').filterMap InFlight.connects).Perm
      (t.requests.filterMap InFlight.connects) := by
  have hperm := filterMap_set_perm InFlight.connects hr r'
  rw [hsame] at hperm
  exact (List.perm_append_left_iff _).mp hperm

/-- Whatever leaves tickets alone, and lets time pass at most. -/
theorem TicketInv.congr (h : TicketInv s) {access : AccessState} {lost : List UUID}
    (htickets : access.tickets = s.access.tickets) (hout : access.handedOut = s.access.handedOut)
    (hnow : s.access.account.now ≤ access.account.now)
    (hsockets : (TicketState.connected ⟨access, s.granted, s.redeemed, lost⟩).Perm s.connected) :
    TicketInv ⟨access, s.granted ++ [], s.redeemed ++ [], lost⟩ := by
  rw [List.append_nil, List.append_nil]
  constructor
  · rw [hout]
    exact h.handedOut
  · exact h.granted
  · exact fun g hg => (h.past g hg).trans hnow
  · rw [htickets]
    exact h.stored
  · exact h.once
  · exact h.covered
  · exact hsockets.trans h.sockets

/-- A request goes on, or ends, without a connect or a socket. -/
theorem TicketInv.requests (h : TicketInv s) {access : AccessState}
    (htickets : access.tickets = s.access.tickets) (hout : access.handedOut = s.access.handedOut)
    (hnow : s.access.account.now ≤ access.account.now)
    (hsockets : access.sockets.map Socket.user = s.access.sockets.map Socket.user)
    (hrequests : (access.requests.filterMap InFlight.connects).Perm
      (s.access.requests.filterMap InFlight.connects)) :
    TicketInv ⟨access, s.granted ++ [], s.redeemed ++ [], s.lost ++ []⟩ := by
  rw [List.append_nil s.lost]
  refine h.congr htickets hout hnow ?_
  unfold TicketState.connected
  rw [hsockets]
  exact (hrequests.append_right _).append_left _

/-- A new ticket is stored under its own key. -/
theorem TicketInv.grant (h : TicketInv s) {i : ℕ} {user : UUID} {ticket : String}
    (hrequest : s.access.requests[i]? = some (.ticket user))
    (hfresh : ticket ∉ s.access.handedOut) :
    TicketInv ⟨createWsTicket s.access i user ticket,
      s.granted ++ [⟨ticket, user, s.access.account.now⟩], s.redeemed ++ [], s.lost ++ []⟩ := by
  rw [List.append_nil, List.append_nil]
  have hnew : ticket ∉ s.granted.map TicketUse.ticket := fun hmem =>
    hfresh ((h.handedOut ticket).mpr hmem)
  have hunused : ticket ∉ s.redeemed.map TicketUse.ticket := by
    intro hmem
    obtain ⟨r, hr, rfl⟩ := List.mem_map.mp hmem
    obtain ⟨g, hg, hticket, -⟩ := h.covered r hr
    exact hnew (hticket ▸ List.mem_map_of_mem hg)
  constructor
  · intro k
    show k ∈ ticket :: s.access.handedOut ↔ _
    rw [List.map_append, List.mem_append, List.mem_cons, h.handedOut, or_comm, List.map_singleton,
      List.mem_singleton]
  · rw [List.map_append, List.map_singleton, ← List.concat_eq_append]
    exact h.granted.concat hnew
  · intro g hg
    obtain hold | rfl := (List.mem_append.mp hg).imp_right List.mem_singleton.mp
    · exact h.past g hold
    · exact le_rfl
  · intro k e
    show s.access.tickets.set ticket user.str _ k = some e ↔ _
    by_cases hk : k = ticket
    · subst hk
      rw [TtlMap.set_self]
      constructor
      · intro he
        exact ⟨_, List.mem_append_right _ (List.mem_singleton.mpr rfl), rfl, hunused,
          (Option.some.inj he).symm⟩
      · rintro ⟨g, hg, hticket, -, rfl⟩
        obtain hold | rfl := (List.mem_append.mp hg).imp_right List.mem_singleton.mp
        · exact absurd (hticket ▸ List.mem_map_of_mem hold) hnew
        · rfl
    · rw [TtlMap.set_of_ne hk, h.stored]
      constructor
      · rintro ⟨g, hg, hrest⟩
        exact ⟨g, List.mem_append_left _ hg, hrest⟩
      · rintro ⟨g, hg, hticket, hrest⟩
        obtain hold | rfl := (List.mem_append.mp hg).imp_right List.mem_singleton.mp
        · exact ⟨g, hold, hticket, hrest⟩
        · exact absurd hticket.symm hk
  · exact h.once
  · intro r hr
    obtain ⟨g, hg, hrest⟩ := h.covered r hr
    exact ⟨g, List.mem_append_left _ hg, hrest⟩
  · have hrequests := (filterMap_eraseIdx_perm InFlight.connects hrequest).symm
    exact ((hrequests.append_right _).append_left _).symm.trans h.sockets

/-- A valid ticket is deleted as it is redeemed. -/
theorem TicketInv.redeem (h : TicketInv s) {ticket : String} {u : UUID}
    (hvalid : s.Valid ticket u) :
    TicketInv ⟨connect s.access ticket u, s.granted ++ [],
      s.redeemed ++ [⟨ticket, u, s.access.account.now⟩], s.lost ++ []⟩ := by
  rw [List.append_nil, List.append_nil]
  obtain ⟨g, hg, hticket, huser, hlive, hnot⟩ := hvalid
  have hmap : (s.redeemed ++ [(⟨ticket, u, s.access.account.now⟩ : TicketUse)]).map
      TicketUse.ticket = s.redeemed.map TicketUse.ticket ++ [ticket] := by
    rw [List.map_append, List.map_singleton]
  constructor
  · exact h.handedOut
  · exact h.granted
  · exact h.past
  · intro k e
    show s.access.tickets.del ticket k = some e ↔ _
    rw [hmap]
    by_cases hk : k = ticket
    · subst hk
      rw [TtlMap.del_self]
      refine iff_of_false (Option.some_ne_none _).symm ?_
      rintro ⟨-, -, -, hunused, -⟩
      exact hunused (List.mem_append_right _ (List.mem_singleton.mpr rfl))
    · rw [TtlMap.del_of_ne hk, h.stored]
      simp only [List.mem_append, List.mem_singleton, hk, or_false]
  · rw [hmap, ← List.concat_eq_append]
    exact h.once.concat hnot
  · intro r hr
    obtain hold | rfl := (List.mem_append.mp hr).imp_right List.mem_singleton.mp
    · exact h.covered r hold
    · exact ⟨g, hg, hticket, huser, h.past g hg, hlive⟩
  · show (s.access.sockets.map Socket.user ++
      ((s.access.requests ++ [InFlight.redeemed u]).filterMap InFlight.connects ++ s.lost)).Perm _
    rw [List.filterMap_append, List.map_append]
    refine List.Perm.trans ?_ (h.sockets.append_right _)
    unfold TicketState.connected
    rw [List.append_assoc, List.append_assoc, List.append_assoc]
    exact (List.perm_append_comm.append_left _).append_left _

/-- A login or a change of status takes no time. -/
theorem accountStep_now_le {t t' : AccountState} {a : AccountAction}
    (hs : accountStep t a = some t') : t.now ≤ t'.now := by
  cases a with
  | verify body =>
    simp only [accountStep] at hs
    split at hs <;> obtain rfl := Option.some.inj hs <;> exact le_rfl
  | verifyCommit i otpOk milOk =>
    simp only [accountStep] at hs
    split at hs
    · split_ifs at hs <;> obtain rfl := Option.some.inj hs
      · exact (commit_cases t i _ _ _).1.ge
      · exact le_rfl
    · cases hs
  | setUserStatus creds userId action =>
    simp only [accountStep] at hs
    split at hs <;> obtain rfl := Option.some.inj hs <;> exact le_rfl
  | statusCommit i =>
    simp only [accountStep] at hs
    split at hs
    · obtain rfl := Option.some.inj hs
      exact (commit_cases t i _ _ _).1.ge
    · obtain rfl := Option.some.inj hs
      exact (commit_cases t i _ _ _).1.ge
    · cases hs
  | tick d =>
    obtain rfl := Option.some.inj hs
    exact le_add_of_nonneg_right (Int.natCast_nonneg d)

theorem closeSocket_users {t : AccessState} {i : ℕ} {socket : Socket}
    (hi : t.sockets[i]? = some socket) :
    (closeSocket t i socket).sockets.map Socket.user = t.sockets.map Socket.user := by
  show (t.sockets.set i { socket with isOpen := false }).map Socket.user = _
  rw [List.map_set]
  obtain ⟨hlt, rfl⟩ := List.getElem?_eq_some_iff.mp hi
  refine List.ext_getElem (by simp) fun j hj hj' => ?_
  rw [List.getElem_set]
  split_ifs with hij
  · subst hij
    exact (List.getElem_map Socket.user).symm
  · rfl

theorem receiveFrame_users {t : AccessState} {i : ℕ} {socket : Socket} (fresh : NewRow)
    (fr : Frame) (hi : t.sockets[i]? = some socket) :
    (receiveFrame t i socket fresh fr).sockets.map Socket.user = t.sockets.map Socket.user := by
  unfold receiveFrame
  dsimp only
  split_ifs
  · exact closeSocket_users hi
  · rfl

theorem receiveFrame_tickets (t : AccessState) (i : ℕ) (socket : Socket) (fresh : NewRow)
    (fr : Frame) : (receiveFrame t i socket fresh fr).tickets = t.tickets ∧
      (receiveFrame t i socket fresh fr).handedOut = t.handedOut ∧
      (receiveFrame t i socket fresh fr).account = t.account ∧
      (receiveFrame t i socket fresh fr).requests = t.requests := by
  unfold receiveFrame
  dsimp only
  split_ifs <;> exact ⟨rfl, rfl, rfl, rfl⟩

theorem openAt_getElem {t : AccessState} {i : ℕ} {socket : Socket} (h : t.openAt i = some socket) :
    t.sockets[i]? = some socket := (Option.filter_eq_some_iff.mp h).1

/-- A connect becomes a socket, or is given up. -/
theorem TicketInv.leaves (h : TicketInv s) {i : ℕ} {r : InFlight}
    (hrequest : s.access.requests[i]? = some r) {access : AccessState} {lost : List UUID}
    (htickets : access.tickets = s.access.tickets) (hout : access.handedOut = s.access.handedOut)
    (hnow : access.account.now = s.access.account.now)
    (hrequests : access.requests = s.access.requests.eraseIdx i)
    (hsockets : (access.sockets.map Socket.user ++ lost).Perm
      (s.access.sockets.map Socket.user ++ s.lost ++ r.connects.toList)) :
    TicketInv ⟨access, s.granted ++ [], s.redeemed ++ [], lost⟩ := by
  refine h.congr htickets hout hnow.ge (List.perm_iff_count.mpr fun u => ?_)
  have hcount := List.perm_iff_count.mp hsockets u
  have herase := List.perm_iff_count.mp (filterMap_eraseIdx_perm InFlight.connects hrequest).symm u
  unfold TicketState.connected
  rw [hrequests]
  simp only [List.count_append] at *
  omega

theorem authorize_now (t : AccessState) (i : ℕ) (payload : AccessToken) (route : Route) :
    (authorize t i payload route).account.now = t.account.now ∧
      (authorize t i payload route).tickets = t.tickets ∧
      (authorize t i payload route).handedOut = t.handedOut ∧
      (authorize t i payload route).sockets = t.sockets := by
  unfold authorize
  split
  · exact ⟨rfl, rfl, rfl, rfl⟩
  · split
    · exact ⟨rfl, rfl, rfl, rfl⟩
    · exact ⟨(readTarget_account ..).1, rfl, rfl, rfl⟩
    · exact ⟨rfl, rfl, rfl, rfl⟩

theorem authorize_connects {t : AccessState} {i : ℕ} {payload : AccessToken} {route : Route}
    (hrequest : t.requests[i]? = some (.decoded payload route)) :
    ((authorize t i payload route).requests.filterMap InFlight.connects).Perm
      (t.requests.filterMap InFlight.connects) := by
  have herase : ((t.requests.eraseIdx i).filterMap InFlight.connects).Perm
      (t.requests.filterMap InFlight.connects) :=
    filterMap_eraseIdx_perm InFlight.connects hrequest
  unfold authorize
  split
  · exact herase
  · split
    · exact connects_set hrequest rfl
    · exact herase
    · exact herase

theorem ticketInv_step (s : TicketState) (a : AccessAction) (s' : TicketState) (h : TicketInv s)
    (hg : FreshDraw s a) (hs : ticketStep s a = some s') : TicketInv s' := by
  obtain ⟨access, haccess, rfl⟩ := Option.map_eq_some_iff.mp hs
  cases a with
  | account a =>
    obtain ⟨account, haccount, rfl⟩ := accessStep_account haccess
    exact h.requests rfl rfl (accountStep_now_le haccount) rfl (.refl _)
  | decode creds route =>
    simp only [accessStep] at haccess
    split_ifs at haccess
    split at haccess <;> obtain rfl := Option.some.inj haccess
    · exact h.requests rfl rfl le_rfl rfl (.refl _)
    · refine h.requests rfl rfl le_rfl rfl ?_
      rw [List.filterMap_append]
      exact .of_eq (List.append_nil _)
  | authorize i =>
    simp only [accessStep] at haccess
    split at haccess
    · rename_i payload route hrequest
      obtain rfl := Option.some.inj haccess
      obtain ⟨hnow, htickets, hout, hsockets⟩ := authorize_now s.access i payload route
      exact h.requests htickets hout hnow.ge (by rw [hsockets]) (authorize_connects hrequest)
    · cases haccess
  | storeTicket i ticket =>
    simp only [accessStep] at haccess
    split at haccess
    · rename_i user hrequest
      obtain rfl := Option.some.inj haccess
      simp only [grants, hrequest, redemptions, losses]
      exact h.grant hrequest hg
    · cases haccess
  | redeem ticket =>
    simp only [accessStep] at haccess
    cases hu : Ws.redeem s.access ticket with
    | none =>
      simp only [hu, grants, redemptions, losses] at haccess ⊢
      obtain rfl := Option.some.inj haccess
      exact h.requests rfl rfl le_rfl rfl (.refl _)
    | some u =>
      simp only [hu, grants, redemptions, losses] at haccess ⊢
      obtain rfl := Option.some.inj haccess
      exact h.redeem ((h.opensOnce.opens ticket u).mp hu).2.2
  | accept i =>
    simp only [accessStep] at haccess
    split at haccess
    · rename_i user hrequest
      obtain rfl := Option.some.inj haccess
      exact h.requests rfl rfl le_rfl rfl (connects_set hrequest rfl)
    · cases haccess
  | register i connectionId =>
    simp only [accessStep] at haccess
    split at haccess
    · rename_i user hrequest
      obtain rfl := Option.some.inj haccess
      refine h.leaves hrequest rfl rfl rfl rfl (List.perm_iff_count.mpr fun u => ?_)
      simp only [openSocket, losses, InFlight.connects, Option.toList_some, List.map_append,
        List.map_singleton, List.append_nil, List.count_append]
      omega
    · cases haccess
  | drop i =>
    obtain ⟨r, hrequest, rfl⟩ := Option.map_eq_some_iff.mp haccess
    refine h.leaves hrequest rfl rfl rfl rfl (.of_eq ?_)
    simp only [losses, hrequest, Option.bind_some, List.append_assoc]
  | frame i fresh fr =>
    obtain ⟨socket, hsocket, rfl⟩ := Option.map_eq_some_iff.mp haccess
    obtain ⟨htickets, hout, haccount, hrequests⟩ := receiveFrame_tickets s.access i socket fresh fr
    exact h.requests htickets hout (by rw [haccount])
      (receiveFrame_users fresh fr (openAt_getElem hsocket)) (by rw [hrequests])
  | disconnect i =>
    obtain ⟨socket, hsocket, rfl⟩ := Option.map_eq_some_iff.mp haccess
    exact h.requests rfl rfl le_rfl (closeSocket_users (openAt_getElem hsocket)) (.refl _)

/-! ## Runs -/

/-- **One-time tickets.** In every run in which no random string is drawn twice, a ticket is
    redeemed if and only if it is less than 30 seconds old and has not been, and every socket is
    one of the user whose ticket was redeemed for it. -/
theorem tickets_open_once (w : World) (as : List AccessAction) (s' : TicketState)
    (hg : Guarded ticketStep FreshDraw (TicketState.init w) as)
    (hr : run ticketStep (TicketState.init w) as = some s') : OpensOnce s' :=
  (hg.invariant ticketInv_step (ticketInv_init w) hr).opensOnce

/-- A ticket is used once, and tried a second time. -/
theorem tickets_open_once_retried : ∃ s',
    run ticketStep (TicketState.init sampleWorld)
      (connectedRun ++ [.redeem "ticket-of-user-7"]) = some s' ∧
    s'.access.sockets = [⟨7, "c7", true⟩] ∧ OpensOnce s' := by
  have hrun : (run ticketStep (TicketState.init sampleWorld)
      (connectedRun ++ [.redeem "ticket-of-user-7"])).map (·.access.sockets) =
      some [⟨7, "c7", true⟩] := by decide +kernel
  obtain ⟨s', hs', hsockets⟩ := Option.map_eq_some_iff.mp hrun
  exact ⟨s', hs', hsockets, tickets_open_once _ _ s' (by decide +kernel) hs'⟩

/-- A string that is drawn again is redeemed again. -/
theorem reused_draw_opens_twice :
    ¬ ∀ w as s', run ticketStep (TicketState.init w) as = some s' → OpensOnce s' := by
  intro h
  have hrun : (run ticketStep (TicketState.init sampleWorld)
      (connectedRun ++ [.decode (some (loginToken sampleUser 0)) .wsTicket, .authorize 0,
        .storeTicket 0 "ticket-of-user-7", .redeem "ticket-of-user-7"])).map
      (·.redeemed.map TicketUse.ticket) =
      some ["ticket-of-user-7", "ticket-of-user-7"] := by decide +kernel
  obtain ⟨s', hs', htwice⟩ := Option.map_eq_some_iff.mp hrun
  have := (h _ _ s' hs').once
  rw [htwice] at this
  exact absurd this (by decide)

end IronLink.Ws
