import IronLink.Lib.Program

/-!
# One user of a shared service

Two runs contain the same actions of one user, and between them any actions of others.
They are compared at the user's actions: `glances` collects what a function shows of the
states in which these are taken.

Results:
* `glances_eq_iff`: when the user's glances agree in two runs of the same actions.
* `TwoRuns.ends`: the two runs end related when the user's glances agree, and apart when
  they do not.
* `Isolates.same_responses_iff`: on a service whose users keep their contracts, the user is
  answered alike in both runs exactly when the user's commands see the same.
-/

namespace Lib

/-! ## Two interleavings -/

section

variable {σ α ω : Type*} (step : σ → α → Option σ) (mine : α → Bool) (look : σ → α → ω)

/-- What `look` shows at each of my actions. -/
def glances : σ → List α → List ω
  | _, [] => []
  | s, a :: as =>
    (if mine a then [look s a] else []) ++ (step s a).elim [] fun s' => glances s' as

/-- The actions of others keep `R`, on either side; mine keep it when they look alike, and
    part the two states when they do not; states that are apart stay apart. `P` holds of
    all actions. -/
structure TwoRuns (R D : σ → σ → Prop) (P : α → Prop) : Prop where
  left : ∀ {s t a s'}, R s t → P a → mine a = false → step s a = some s' → R s' t
  right : ∀ {s t a t'}, R s t → P a → mine a = false → step t a = some t' → R s t'
  both : ∀ {s t a s' t'}, R s t → P a → mine a = true → step s a = some s' →
    step t a = some t' → look s a = look t a → R s' t'
  part : ∀ {s t a s' t'}, R s t → P a → mine a = true → step s a = some s' →
    step t a = some t' → look s a ≠ look t a → D s' t'
  apartLeft : ∀ {s t a s'}, D s t → step s a = some s' → D s' t
  apartRight : ∀ {s t a t'}, D s t → step t a = some t' → D s t'

variable {step mine look} {R D : σ → σ → Prop} {P : α → Prop} {s t s' t' : σ} {a : α}
  {as bs : List α}

theorem glances_mine (hmine : mine a = true) (hs : step s a = some s') (as : List α) :
    glances step mine look s (a :: as) = look s a :: glances step mine look s' as := by
  rw [glances, if_pos hmine, hs]
  rfl

theorem glances_other (hmine : mine a = false) (hs : step s a = some s') (as : List α) :
    glances step mine look s (a :: as) = glances step mine look s' as := by
  rw [glances, hmine, hs]
  rfl

namespace TwoRuns

theorem apart (h : TwoRuns step mine look R D P) (hD : D s t) (hs : run step s as = some s')
    (ht : run step t bs = some t') : D s' t' := by
  induction as generalizing s with
  | cons a as ih =>
    obtain ⟨m, hm, hs⟩ := run_cons_some hs
    exact ih (h.apartLeft hD hm) hs
  | nil =>
    cases hs
    induction bs generalizing t with
    | nil =>
      cases ht
      exact hD
    | cons b bs ih =>
      obtain ⟨m, hm, hrest⟩ := run_cons_some ht
      exact ih hrest (h.apartRight hD hm)

/-- **Two runs.** -/
theorem ends (h : TwoRuns step mine look R D P) (hsame : as.filter mine = bs.filter mine)
    (has : ∀ a ∈ as, P a) (hbs : ∀ b ∈ bs, P b) (hR : R s t) (hs : run step s as = some s')
    (ht : run step t bs = some t') :
    glances step mine look s as = glances step mine look t bs ∧ R s' t' ∨
      glances step mine look s as ≠ glances step mine look t bs ∧ D s' t' := by
  induction as generalizing s t bs with
  | nil =>
    cases hs
    induction bs generalizing t with
    | nil =>
      cases ht
      exact .inl ⟨rfl, hR⟩
    | cons b bs ih =>
      obtain ⟨m, hm, hrest⟩ := run_cons_some ht
      cases hmine : mine b with
      | true =>
        rw [List.filter_cons_of_pos hmine] at hsame
        cases hsame
      | false =>
        rw [List.filter_cons_of_neg (by rw [hmine]; exact Bool.false_ne_true)] at hsame
        rw [glances_other hmine hm]
        exact ih hsame (fun c hc => hbs c (List.mem_cons_of_mem _ hc)) hrest
          (h.right hR (hbs b List.mem_cons_self) hmine hm)
  | cons a as iha =>
    obtain ⟨m, hm, hs⟩ := run_cons_some hs
    have hrest : ∀ c ∈ as, P c := fun c hc => has c (List.mem_cons_of_mem _ hc)
    cases hmine : mine a with
    | false =>
      rw [List.filter_cons_of_neg (by rw [hmine]; exact Bool.false_ne_true)] at hsame
      rw [glances_other hmine hm]
      exact iha hsame hrest hbs (h.left hR (has a List.mem_cons_self) hmine hm) hs ht
    | true =>
      rw [List.filter_cons_of_pos hmine] at hsame
      -- the other run comes to this action after actions of others
      induction bs generalizing t with
      | nil => cases hsame
      | cons b bs ihb =>
        obtain ⟨n, hn, hrun⟩ := run_cons_some ht
        have hrest' : ∀ c ∈ bs, P c := fun c hc => hbs c (List.mem_cons_of_mem _ hc)
        cases hmineb : mine b with
        | false =>
          rw [List.filter_cons_of_neg (by rw [hmineb]; exact Bool.false_ne_true)] at hsame
          rw [glances_other hmineb hn]
          exact ihb hsame hrest' (h.right hR (hbs b List.mem_cons_self) hmineb hn) hrun
        | true =>
          rw [List.filter_cons_of_pos hmineb] at hsame
          obtain ⟨rfl, htail⟩ := List.cons_eq_cons.mp hsame
          have hPa := has a List.mem_cons_self
          rw [glances_mine hmine hm, glances_mine hmine hn]
          by_cases hlook : look s a = look t a
          · rw [hlook, ne_eq, List.cons_inj_right]
            exact iha htail hrest hrest' (h.both hR hPa hmine hm hn hlook) hs hrun
          · exact .inr ⟨fun heq => hlook (List.cons_eq_cons.mp heq).1,
              h.apart (h.part hR hPa hmine hm hn hlook) hs hrun⟩

end TwoRuns

/-! ## The same actions in two runs -/

variable (step mine) in
/-- `G` holds, at each of my actions, of the two states it is taken in. -/
def Alike (G : σ → σ → α → Prop) : σ → σ → List α → Prop
  | _, _, [] => True
  | s, t, a :: as =>
    (mine a = true → G s t a) ∧ ∀ s' ∈ step s a, ∀ t' ∈ step t a, Alike G s' t' as

/-- Related states stay related, and at my actions `G` says when they look alike: then my
    glances agree exactly when `G` holds at all of them. -/
theorem glances_eq_iff {G : σ → σ → α → Prop}
    (hstep : ∀ {s t}, R s t → ∀ a, Option.Rel R (step s a) (step t a))
    (hlook : ∀ {s t a}, R s t → mine a = true → (look s a = look t a ↔ G s t a)) (h : R s t)
    (as : List α) :
    glances step mine look s as = glances step mine look t as ↔ Alike step mine G s t as := by
  induction as generalizing s t with
  | nil => exact iff_of_true rfl trivial
  | cons a as ih =>
    unfold glances Alike
    have hrel := hstep h a
    generalize step s a = next at hrel
    generalize step t a = next' at hrel
    have hrest : (next.elim [] fun s' => glances step mine look s' as) =
        (next'.elim [] fun t' => glances step mine look t' as) ↔
          ∀ s' ∈ next, ∀ t' ∈ next', Alike step mine G s' t' as := by
      cases hrel with
      | none => exact iff_of_true rfl fun _ hs => (by cases hs)
      | some h' =>
        refine (ih h').trans ⟨fun halike s' hs' t' ht' => ?_, fun halike => halike _ rfl _ rfl⟩
        cases hs'
        cases ht'
        exact halike
    cases hmine : mine a with
    | false =>
      rw [if_neg Bool.false_ne_true, if_neg Bool.false_ne_true, List.nil_append, List.nil_append,
        hrest]
      exact ⟨fun halike => ⟨fun hf => (by cases hf), halike⟩, fun halike => halike.2⟩
    | true =>
      rw [if_pos rfl, if_pos rfl, List.singleton_append, List.singleton_append, List.cons_eq_cons,
        hlook h hmine, hrest]
      exact and_congr_left fun _ => ⟨fun hG _ => hG, fun hG => hG rfl⟩

end

/-! ## A service and one of its users -/

section

variable {T U ι σ Cmd ω : Type} {Reply : Cmd → Type} {ε α : Type} [DecidableEq U]

/-- The invariant `I` of the backend meets the expectations of all users, and what `u` can
    tell of the backend, `View`, is out of the others' reach. `see` is what the commands of
    `u` come across: two states of which `u` can tell the same answer a command of `u`
    alike and show it the same, or refuse it, alike if and only if they show it the same. -/
structure Isolates (exec : T → σ → (command : Cmd) → σ × Reply command)
    (contract : U → Contract Cmd Reply ε) (u : U) (I : σ → Prop) (View : σ → σ → Prop)
    (see : T → σ → Cmd → ω) : Prop where
  symm : ∀ {s s'}, View s s' → View s' s
  trans : ∀ {s s' s''}, View s s' → View s' s'' → View s s''
  expected : ∀ {s v c} t, I s → (contract v).may c → (contract v).expects c (exec t s c).2
  keeps : ∀ {s v c} t, I s → (contract v).may c → I (exec t s c).1
  foreign : ∀ {s v c} t, I s → v ≠ u → (contract v).may c → View s (exec t s c).1
  own : ∀ {s s' c} t, I s → I s' → View s s' → (contract u).may c →
    View (exec t s c).1 (exec t s' c).1
  reply : ∀ {s s' c} t, I s → I s' → View s s' → (contract u).may c →
    (exec t s c).2 = (exec t s' c).2 ∧ see t s c = see t s' c ∨
      ∃ e e', (contract u).refuses c (exec t s c).2 = some e ∧
        (contract u).refuses c (exec t s' c).2 = some e' ∧ (e = e' ↔ see t s c = see t s' c)

/-- What the command of an event comes across. -/
def Service.sees (see : T → σ → Cmd → ω) (s : Service σ U Cmd Reply ε α) (a : Arrival T U ι) :
    Option ω :=
  (s.command a).map (see a.time s.backend)

variable {handler : U → ι → Prog Cmd Reply ε α}
  {exec : T → σ → (command : Cmd) → σ × Reply command} {contract : U → Contract Cmd Reply ε}
  {u : U} {I : σ → Prop} {View : σ → σ → Prop} {see : T → σ → Cmd → ω}

/-- The calls of `u` are the same on both sides, and so is what `u` can tell. -/
structure SameFor (contract : U → Contract Cmd Reply ε) (u : U) (I : σ → Prop)
    (View : σ → σ → Prop) (s t : Service σ U Cmd Reply ε α) : Prop where
  keepsLeft : s.Keeps contract
  keepsRight : t.Keeps contract
  left : I s.backend
  right : I t.backend
  view : View s.backend t.backend
  calls : s.calls u = t.calls u

omit [DecidableEq U] in
theorem SameFor.symm (hiso : Isolates exec contract u I View see)
    {s t : Service σ U Cmd Reply ε α} (h : SameFor contract u I View s t) :
    SameFor contract u I View t s where
  keepsLeft := h.keepsRight
  keepsRight := h.keepsLeft
  left := h.right
  right := h.left
  view := hiso.symm h.view
  calls := h.calls.symm

/-- A call of `u` has been refused differently. -/
def Differs (u : U) (s t : Service σ U Cmd Reply ε α) : Prop :=
  ∃ (i : ℕ) (p q : Prog Cmd Reply ε α) (e e' : ε), (s.calls u)[i]? = some p ∧
    (t.calls u)[i]? = some q ∧ p.result = some (.error e) ∧ q.result = some (.error e') ∧ e ≠ e'

omit [DecidableEq U] in
theorem Differs.responses_ne {s t : Service σ U Cmd Reply ε α} (h : Differs u s t) :
    s.responses u ≠ t.responses u := by
  obtain ⟨i, p, q, e, e', hp, hq, he, he', hne⟩ := h
  intro heq
  have hi := congrArg (fun responses => responses[i]?) heq
  simp only [Service.responses, List.getElem?_map, hp, hq, Option.map_some, he, he'] at hi
  exact hne (Except.error.inj (Option.some.inj (Option.some.inj hi)))

/-- The request that an arrival may bring starts a handler that keeps the contract. -/
def Lawful (handler : U → ι → Prog Cmd Reply ε α) (contract : U → Contract Cmd Reply ε)
    (a : Arrival T U ι) : Prop :=
  ∀ request, a.event = .request request →
    (handler a.user request).Keeps (contract a.user) fun _ => True

namespace Isolates

variable {s t s' t' : Service σ U Cmd Reply ε α} {a : Arrival T U ι}

/-- An event of anyone keeps the invariant. -/
theorem keeps_step (hiso : Isolates exec contract u I View see) (hI : I s.backend)
    (hs : s.Keeps contract) (h : s.step handler exec a = some s') : I s'.backend := by
  obtain ⟨request, -, rfl⟩ | ⟨i, command, next, -, hcall, rfl⟩ := Service.step_cases h
  · exact hI
  · exact hiso.keeps a.time hI (hs _ _ (List.mem_of_getElem? hcall)).1

/-- An event of another user changes nothing for `u`. -/
theorem foreign_step (hiso : Isolates exec contract u I View see)
    (hR : SameFor contract u I View s t) (ha : Lawful handler contract a) (hne : a.user ≠ u)
    (h : s.step handler exec a = some s') : SameFor contract u I View s' t where
  keepsLeft := Service.keeps_step hR.keepsLeft ha (fun _ => hiso.expected a.time hR.left) h
  keepsRight := hR.keepsRight
  left := hiso.keeps_step hR.left hR.keepsLeft h
  right := hR.right
  view := by
    obtain ⟨request, -, rfl⟩ | ⟨i, command, next, -, hcall, rfl⟩ := Service.step_cases h
    · exact hR.view
    · have hmay := (hR.keepsLeft _ _ (List.mem_of_getElem? hcall)).1
      exact hiso.trans (hiso.symm (hiso.foreign a.time hR.left hne hmay)) hR.view
  calls := (Service.calls_of_ne h hne.symm).trans hR.calls

/-- What an event of `u` does on both sides. -/
theorem own_step (hiso : Isolates exec contract u I View see)
    (hR : SameFor contract u I View s t) (ha : Lawful handler contract a) (hu : a.user = u)
    (hs : s.step handler exec a = some s') (ht : t.step handler exec a = some t') :
    s.sees see a = t.sees see a ∧ SameFor contract u I View s' t' ∨
      Differs u s' t' ∧ s.sees see a ≠ t.sees see a := by
  have hkeeps' : s'.Keeps contract :=
    Service.keeps_step hR.keepsLeft ha (fun _ => hiso.expected a.time hR.left) hs
  have hkeeps'' : t'.Keeps contract :=
    Service.keeps_step hR.keepsRight ha (fun _ => hiso.expected a.time hR.right) ht
  have hleft : I s'.backend := hiso.keeps_step hR.left hR.keepsLeft hs
  have hright : I t'.backend := hiso.keeps_step hR.right hR.keepsRight ht
  subst hu
  obtain ⟨request, hevent, rfl⟩ | ⟨i, command, next, hevent, hcall, rfl⟩ := Service.step_cases hs
  · obtain ⟨request', hevent', rfl⟩ | ⟨_, _, _, hevent', -, -⟩ := Service.step_cases ht
    · obtain rfl := Event.request.inj (hevent.symm.trans hevent')
      have hnone : ∀ r : Service σ U Cmd Reply ε α, r.sees see a = none := fun r => by
        unfold Service.sees Service.command
        rw [hevent]
        rfl
      refine .inl ⟨(hnone s).trans (hnone t).symm, hkeeps', hkeeps'', hleft, hright, hR.view, ?_⟩
      dsimp only
      rw [Function.update_self, Function.update_self, hR.calls]
    · cases hevent.symm.trans hevent'
  · obtain ⟨_, hevent', -⟩ | ⟨j, command', next', hevent', hcall', rfl⟩ := Service.step_cases ht
    · cases hevent.symm.trans hevent'
    · obtain rfl := Event.resume.inj (hevent.symm.trans hevent')
      rw [← hR.calls] at hcall'
      cases hcall.symm.trans hcall'
      have hsees : ∀ r : Service σ U Cmd Reply ε α, r.calls a.user = s.calls a.user →
          r.sees see a = some (see a.time r.backend command) := fun r hr => by
        unfold Service.sees Service.command
        rw [hevent]
        dsimp only
        rw [hr, hcall]
        rfl
      obtain ⟨hmay, hnext⟩ := hR.keepsLeft _ _ (List.mem_of_getElem? hcall)
      rw [hsees s rfl, hsees t hR.calls.symm]
      have hview := hiso.own a.time hR.left hR.right hR.view hmay
      have hcalls : ∀ {r r' : Reply command}, next r = next r' →
          Function.update s.calls a.user ((s.calls a.user).set i (next r)) a.user =
            Function.update t.calls a.user ((t.calls a.user).set i (next r')) a.user :=
        fun hr => by rw [Function.update_self, Function.update_self, hR.calls, hr]
      obtain ⟨hreply, hsame⟩ | ⟨e, e', he, he', hiff⟩ :=
        hiso.reply a.time hR.left hR.right hR.view hmay
      · exact .inl ⟨congrArg some hsame, hkeeps', hkeeps'', hleft, hright, hview,
          hcalls (congrArg next hreply)⟩
      · have hraise := (hnext _ (hiso.expected a.time hR.left hmay)).1 e he
        have hraise' := (hnext _ (hiso.expected a.time hR.right hmay)).1 e' he'
        by_cases hsame : e = e'
        · exact .inl ⟨congrArg some (hiff.mp hsame), hkeeps', hkeeps'', hleft, hright, hview,
            hcalls (by rw [hraise, hraise', hsame])⟩
        · refine .inr ⟨⟨i, .raise e, .raise e', e, e', ?_, ?_, rfl, rfl, hsame⟩, fun heq =>
            hsame (hiff.mpr (Option.some.inj heq))⟩
          · dsimp only
            rw [Function.update_self, hraise]
            exact getElem?_set_here hcall _
          · dsimp only
            rw [Function.update_self, hraise', ← hR.calls]
            exact getElem?_set_here hcall _

theorem differs_left (h : Differs u s t) (hs : s.step handler exec a = some s') :
    Differs u s' t := by
  obtain ⟨i, p, q, e, e', hp, hq, he, he', hne⟩ := h
  exact ⟨i, p, q, e, e', Service.result_stays hs hp he, hq, he, he', hne⟩

theorem differs_right (h : Differs u s t) (ht : t.step handler exec a = some t') :
    Differs u s t' := by
  obtain ⟨i, p, q, e, e', hp, hq, he, he', hne⟩ := h
  exact ⟨i, p, q, e, e', hp, Service.result_stays ht hq he', he, he', hne⟩

theorem twoRuns (hiso : Isolates exec contract u I View see) :
    TwoRuns (Service.step handler exec) (fun a => decide (a.user = u)) (Service.sees see)
      (SameFor contract u I View) (Differs u) (Lawful handler contract) where
  left hR ha hmine hs := hiso.foreign_step hR ha (of_decide_eq_false hmine) hs
  right hR ha hmine ht :=
    (hiso.foreign_step (hR.symm hiso) ha (of_decide_eq_false hmine) ht).symm hiso
  both hR ha hmine hs ht hsees :=
    ((hiso.own_step hR ha (of_decide_eq_true hmine) hs ht).resolve_right
      fun hdiffers => hdiffers.2 hsees).2
  part hR ha hmine hs ht hsees :=
    ((hiso.own_step hR ha (of_decide_eq_true hmine) hs ht).resolve_left
      fun hsame => hsees hsame.1).1
  apartLeft := differs_left
  apartRight := differs_right

/-- **Isolation.** A user is answered alike in two runs exactly when the user's commands
    see the same in both. -/
theorem same_responses_iff (hiso : Isolates exec contract u I View see) (b : σ) (hI : I b)
    (hview : View b b) {as bs : List (Arrival T U ι)}
    (has : ∀ a ∈ as, Lawful handler contract a) (hbs : ∀ a ∈ bs, Lawful handler contract a)
    (hsame : as.filter (fun a => decide (a.user = u)) = bs.filter fun a => decide (a.user = u))
    (hs : run (Service.step handler exec) ⟨b, fun _ => []⟩ as = some s')
    (ht : run (Service.step handler exec) ⟨b, fun _ => []⟩ bs = some t') :
    s'.responses u = t'.responses u ↔
      glances (Service.step handler exec) (fun a => decide (a.user = u)) (Service.sees see)
          ⟨b, fun _ => []⟩ as =
        glances (Service.step handler exec) (fun a => decide (a.user = u)) (Service.sees see)
          ⟨b, fun _ => []⟩ bs := by
  have hnothing : (⟨b, fun _ => []⟩ : Service σ U Cmd Reply ε α).Keeps contract := by
    intro v prog hprog
    cases hprog
  have hR : SameFor contract u I View (⟨b, fun _ => []⟩ : Service σ U Cmd Reply ε α)
      ⟨b, fun _ => []⟩ := ⟨hnothing, hnothing, hI, hI, hview, rfl⟩
  obtain ⟨hglances, hR'⟩ | ⟨hglances, hdiffers⟩ :=
    TwoRuns.ends hiso.twoRuns hsame has hbs hR hs ht
  · exact iff_of_true (congrArg (List.map Prog.result) hR'.calls) hglances
  · exact iff_of_false hdiffers.responses_ne hglances

end Isolates

end

end Lib
