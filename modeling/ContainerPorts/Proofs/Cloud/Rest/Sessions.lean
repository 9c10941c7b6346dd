import ContainerPorts.Proofs.Cloud.Rest.Conversations

/-!
# Sessions over many calls

The client keeps one session from call to call. Over any run, against any answers, a token
is only sent while its session has more than a minute left and no service has refused it,
and a new token is only asked for when no session is like that. What carries this through
a run is that the session at hand is the last one that was granted, and that every other
one was refused or had run out when it was replaced.
-/
namespace ContainerPorts.Cloud

/-- A session has more than a minute left. -/
def Session.IsCurrent (S : Session) (now : Instant) : Prop :=
  now.toNanos + 60 * 1000000000 < S.expiresAt.toNanos

theorem Session.isFresh_iff {S : Session} {now : Instant} :
    S.isFresh now = true ↔ S.IsCurrent now := by
  unfold isFresh IsCurrent expiryMargin
  rw [decide_eq_true_eq]
  change now.toNanos < S.expiresAt.toNanos - 60 * 1000000000 ↔ _
  omega

theorem Session.not_isCurrent {S : Session} {now : Instant} (h : S.isFresh now = false) :
    ¬ S.IsCurrent now := fun hcurrent => by
  rw [isFresh_iff.mpr hcurrent] at h
  cases h

theorem Session.IsCurrent.mono {S : Session} {now later : Instant} (h : S.IsCurrent later)
    (hle : now.toNanos ≤ later.toNanos) : S.IsCurrent now := by
  unfold Session.IsCurrent at h ⊢
  omega

/-- The clock does not go back. -/
def ClockRuns (es : List RestReply) : Prop := (es.filterMap RestReply.time?).Pairwise (· ≤ ·)

instance (es : List RestReply) : Decidable (ClockRuns es) :=
  inferInstanceAs (Decidable ((es.filterMap RestReply.time?).Pairwise (· ≤ ·)))

namespace ClockRuns

variable {es fs : List RestReply}

theorem left (h : ClockRuns (es ++ fs)) : ClockRuns es := by
  rw [ClockRuns, List.filterMap_append] at h
  exact (List.pairwise_append.mp h).1

theorem init {e : RestReply} (h : ClockRuns (es ++ (fs ++ [e]))) : ClockRuns (es ++ fs) := by
  rw [← List.append_assoc] at h
  exact h.left

theorem le (h : ClockRuns (es ++ fs)) {now later : Instant} (hnow : ⟨.now, now⟩ ∈ es)
    (hlater : ⟨.now, later⟩ ∈ fs) : now.toNanos ≤ later.toNanos := by
  rw [ClockRuns, List.filterMap_append] at h
  exact (List.pairwise_append.mp h).2.2 _ (List.mem_filterMap.mpr ⟨_, hnow, rfl⟩) _
    (List.mem_filterMap.mpr ⟨_, hlater, rfl⟩)

end ClockRuns

theorem RestReply.Bears.unique {e : RestReply} {t u : String} (h : e.Bears t) (h' : e.Bears u) :
    t = u := by
  match e, h, h' with
  | ⟨.http r, _⟩, h, h' => exact Option.some.inj (h.symm.trans h')

namespace RestClient

variable (c : RestClient)

/-- A session was obtained, and no request was refused since. -/
def Obtained (history : List RestReply) (S : Session) : Prop :=
  ∃ before e since, history = before ++ e :: since ∧ c.Grants S e ∧ ∀ f ∈ since, ¬ f.Refused

variable {c} {history es : List RestReply} {e : RestReply} {known got : Option Session}
  {S : Session}

theorem obtained_concat_iff :
    c.Obtained (history ++ [e]) S ↔ c.Obtained history S ∧ ¬ e.Refused ∨ c.Grants S e :=
  exists_since_concat_iff

theorem not_obtained_nil : ¬ c.Obtained [] S := by
  rintro ⟨before, e, since, h, -⟩
  cases before <;> cases h

theorem joined_of_logsIn (h : c.LogsIn e) : ∃ url, joined c.identity "auth/tokens" = .ok url := by
  match e, h with
  | ⟨.http r, _⟩, h => exact ⟨r.url, h.2.1⟩

theorem Obtained.exists_url (h : c.Obtained history S) :
    ∃ url, joined c.identity "auth/tokens" = .ok url := by
  obtain ⟨before, e, since, -, he, -⟩ := h
  exact joined_of_logsIn he.1

theorem not_bears_of_logsIn (h : c.LogsIn e) (t : String) : ¬ e.Bears t := by
  match e, h with
  | ⟨.http r, _⟩, h =>
    intro ht
    have hnone : r.token = none := h.2.2.1
    rw [show r.token = some t from ht] at hnone
    cases hnone

theorem exists_bears_of_refused (h : e.Refused) : ∃ t, e.Bears t := by
  match e, h with
  | ⟨.http r, .ok response⟩, h => exact Option.ne_none_iff_exists'.mp h.1

theorem not_refused_of_logsIn (h : c.LogsIn e) : ¬ e.Refused := fun hrefused => by
  obtain ⟨t, ht⟩ := exists_bears_of_refused hrefused
  exact not_bears_of_logsIn h t ht

theorem not_grants_of_bears {t : String} (h : e.Bears t) (S : Session) : ¬ c.Grants S e :=
  fun hgrants => not_bears_of_logsIn hgrants.1 t h

theorem grants_unique {S' : Session} (h : c.Grants S e) (h' : c.Grants S' e) : S = S' := by
  obtain ⟨-, r, response, rfl, hS⟩ := h
  obtain ⟨-, r', response', he, hS'⟩ := h'
  cases he
  rw [hS] at hS'
  exact Except.ok.inj hS'

/-! ### What is known of past sessions -/

/-- The session at hand is the last that was obtained, and every other one has run out. -/
structure Accounts (c : RestClient) (history : List RestReply) (known : Option Session) :
    Prop where
  obtained : ∀ S, known = some S → c.Obtained history S
  others : ∀ S, c.Obtained history S →
    known = some S ∨ known ≠ none ∧ ∃ now, ⟨.now, now⟩ ∈ history ∧ ¬ S.IsCurrent now

namespace Accounts

theorem start : c.Accounts [] none where
  obtained S hS := absurd hS.symm (Option.some_ne_none S)
  others _ h := absurd h not_obtained_nil

/-- Nothing changes when no session is granted or refused. -/
theorem quiet (h : c.Accounts history known) (hgrants : ∀ S, ¬ c.Grants S e)
    (hrefused : ¬ e.Refused) : c.Accounts (history ++ [e]) known where
  obtained S hS := obtained_concat_iff.mpr (.inl ⟨h.obtained S hS, hrefused⟩)
  others S hS := by
    rcases obtained_concat_iff.mp hS with ⟨hS, -⟩ | hS
    · refine (h.others S hS).imp id fun ⟨hknown, now, hnow, hold⟩ => ?_
      exact ⟨hknown, now, List.mem_append_left _ hnow, hold⟩
    · exact absurd hS (hgrants S)

theorem now (h : c.Accounts history known) (now : Instant) :
    c.Accounts (history ++ [⟨.now, now⟩]) known :=
  h.quiet (fun _ hgrants => hgrants.1) id

/-- The session at hand is replaced when it has run out. -/
theorem granted (h : c.Accounts history known) (hgrants : c.Grants S e)
    (hold : ∀ S, known = some S → ∃ now, ⟨.now, now⟩ ∈ history ∧ ¬ S.IsCurrent now) :
    c.Accounts (history ++ [e]) (some S) where
  obtained S' hS := obtained_concat_iff.mpr (.inr (Option.some.inj hS ▸ hgrants))
  others S' hS := by
    rcases obtained_concat_iff.mp hS with ⟨hS, -⟩ | hS
    · obtain ⟨now, hnow, hended⟩ : ∃ now, ⟨.now, now⟩ ∈ history ∧ ¬ S'.IsCurrent now := by
        rcases h.others S' hS with hknown | ⟨-, hended⟩
        · exact hold S' hknown
        · exact hended
      exact .inr ⟨Option.some_ne_none S, now, List.mem_append_left _ hnow, hended⟩
    · exact .inl (congrArg some (grants_unique hgrants hS))

/-- After a refusal no session of the past is any good. -/
theorem refused (hrefused : e.Refused) : c.Accounts (history ++ [e]) none where
  obtained S hS := absurd hS.symm (Option.some_ne_none S)
  others S hS := by
    rcases obtained_concat_iff.mp hS with ⟨-, h⟩ | hS
    · exact absurd hrefused h
    · exact absurd hrefused (not_refused_of_logsIn hS.1)

theorem authenticates (h : c.Accounts history known) (hauth : c.Authenticates es got)
    (hold : ∀ S, known = some S → ∃ now, ⟨.now, now⟩ ∈ history ∧ ¬ S.IsCurrent now) :
    c.Accounts (history ++ es) (got.or known) := by
  cases hauth with
  | unsent => rwa [List.append_nil]
  | failed hlogin hfailed => exact h.quiet hfailed (not_refused_of_logsIn hlogin)
  | granted hgrants => exact h.granted hgrants hold

theorem opens (h : c.Accounts history known) (hopens : c.Opens known es got) :
    c.Accounts (history ++ es) (got.or known) := by
  cases hopens with
  | fresh => exact h.now _
  | @stale S now es got hstale hauth =>
    rw [List.append_cons]
    refine (h.now now).authenticates hauth ?_
    rintro S' ⟨⟩
    exact ⟨now, by simp, Session.not_isCurrent hstale⟩
  | unknown hauth => exact h.authenticates hauth fun S hS => absurd hS.symm (Option.some_ne_none S)

theorem converses {left : Option Session} (h : c.Accounts history known)
    (hconverses : c.Converses known es left) : c.Accounts (history ++ es) left := by
  cases hconverses with
  | failed hopens => exact h.opens hopens
  | unsent hopens => exact h.opens hopens
  | @kept es S e hopens he hkept =>
    rw [← List.append_assoc]
    exact (h.opens hopens).quiet (not_grants_of_bears he) hkept
  | @dropped es S e hopens he hrefused =>
    rw [← List.append_assoc]
    exact refused hrefused

end Accounts

/-! ### One call -/

/-- No session came of asking for a token: it was denied, or there is no place to ask. -/
def Denied (c : RestClient) (es : List RestReply) : Prop :=
  (∃ e ∈ es, c.LogsIn e ∧ ∀ S, ¬ c.Grants S e) ∨ ∀ url, joined c.identity "auth/tokens" ≠ .ok url

/-- How a call gets its session, given what was asked and answered before. -/
structure Opening (c : RestClient) (history es : List RestReply) (got : Option Session) : Prop where
  kinds : ∀ e ∈ es, (∃ now, e = ⟨.now, now⟩) ∨ c.LogsIn e
  once : es.Pairwise fun e f => ¬ (c.LogsIn e ∧ c.LogsIn f)
  needed : ∀ e ∈ es, c.LogsIn e → ∀ S, c.Obtained history S →
    ∃ now, ⟨.now, now⟩ ∈ es ∧ ¬ S.IsCurrent now
  denied : c.Denied es ↔ got = none
  session : ∀ S, got = some S → (∃ e ∈ es, c.Grants S e) ∨
    c.Obtained history S ∧ ∃ now, ⟨.now, now⟩ ∈ es ∧ S.IsCurrent now

theorem Authenticates.opening (h : c.Authenticates es got) (times : List RestReply)
    (htimes : ∀ e ∈ times, ∃ now, e = ⟨.now, now⟩)
    (hended : ∀ S, c.Obtained history S → ∃ now, ⟨.now, now⟩ ∈ times ∧ ¬ S.IsCurrent now) :
    Opening c history (times ++ es) got := by
  have hlogin : ∀ e ∈ es, c.LogsIn e := by
    cases h with
    | unsent => exact List.forall_mem_nil _
    | failed hlogin => simpa using hlogin
    | granted hgrants => simpa using hgrants.1
  have hsingle : es.Pairwise fun e f => ¬ (c.LogsIn e ∧ c.LogsIn f) := by
    cases h with
    | unsent => exact List.Pairwise.nil
    | failed => exact List.pairwise_singleton _ _
    | granted => exact List.pairwise_singleton _ _
  have htime : ∀ e ∈ times, ¬ c.LogsIn e := fun e he h => by
    obtain ⟨now, rfl⟩ := htimes e he
    exact h
  refine ⟨?_, ?_, ?_, ?_, ?_⟩
  · exact fun e he => (List.mem_append.mp he).imp (htimes e) (hlogin e)
  · refine List.pairwise_append.mpr ⟨?_, hsingle, fun e he f _ hef => htime e he hef.1⟩
    exact List.pairwise_of_forall_mem_list fun e he f _ hef => htime e he hef.1
  · intro e he hlogs S hS
    obtain ⟨now, hnow, hold⟩ := hended S hS
    exact ⟨now, List.mem_append_left _ hnow, hold⟩
  · cases h with
    | unsent hurl => exact ⟨fun _ => rfl, fun _ => .inr hurl⟩
    | @failed e hlogs hfailed =>
      exact ⟨fun _ => rfl, fun _ => .inl ⟨e, by simp, hlogs, hfailed⟩⟩
    | @granted e' S hgrants =>
      refine ⟨fun hdenied => ?_, fun h => absurd h (Option.some_ne_none S)⟩
      rcases hdenied with ⟨e, he, hlogs, hfailed⟩ | hurl
      · rcases List.mem_append.mp he with he | he
        · exact absurd hlogs (htime e he)
        · rw [List.mem_singleton.mp he] at hfailed
          exact absurd hgrants (hfailed S)
      · obtain ⟨url, hjoined⟩ := joined_of_logsIn hgrants.1
        exact absurd hjoined (hurl url)
  · intro S hS
    cases h with
    | unsent => cases hS
    | failed => cases hS
    | @granted e S hgrants =>
      cases hS
      exact .inl ⟨e, by simp, hgrants⟩

theorem Opens.opening (h : c.Opens known es got) (hknown : c.Accounts history known)
    (hclock : ClockRuns (history ++ es)) : Opening c history es got := by
  cases h with
  | @fresh S now hfresh =>
    have hlogin : ∀ e ∈ [(⟨.now, now⟩ : RestReply)], ¬ c.LogsIn e := fun e he h => by
      rw [List.mem_singleton.mp he] at h
      exact h
    refine ⟨fun e he => .inl ⟨now, List.mem_singleton.mp he⟩, List.pairwise_singleton _ _,
      fun e he h => absurd h (hlogin e he),
      ⟨fun hdenied => ?_, fun h => absurd h (Option.some_ne_none S)⟩, fun S' hS => ?_⟩
    · rcases hdenied with ⟨e, he, h, -⟩ | hurl
      · exact absurd h (hlogin e he)
      · obtain ⟨url, hjoined⟩ := (hknown.obtained S rfl).exists_url
        exact absurd hjoined (hurl url)
    · cases hS
      exact .inr ⟨hknown.obtained S rfl, now, by simp, Session.isFresh_iff.mp hfresh⟩
  | @stale S now es got hstale hauth =>
    refine hauth.opening [⟨.now, now⟩] (by simp) fun S' hS => ⟨now, by simp, ?_⟩
    rcases hknown.others S' hS with hS' | ⟨-, earlier, hearlier, hended⟩
    · cases hS'
      exact Session.not_isCurrent hstale
    · exact fun hcurrent => hended (hcurrent.mono (hclock.le hearlier (by simp)))
  | unknown hauth =>
    refine hauth.opening [] (List.forall_mem_nil _) fun S hS => ?_
    rcases hknown.others S hS with h | ⟨h, -⟩
    · cases h
    · exact absurd rfl h

end RestClient

/-- One call of a run: what it asked and was answered, and the session before and after it. -/
structure Round where
  call : Call
  before : Option Session
  replies : List RestReply
  after : Option Session

/-- What the client may do in one call, given what was asked and answered before. -/
structure Round.Disciplined (c : RestClient) (history : List RestReply) (x : Round) : Prop where
  /-- Every request either asks for a token or has one. -/
  kinds : ∀ r a, ⟨.http r, a⟩ ∈ x.replies → c.LogsIn ⟨.http r, a⟩ ∨ ∃ t, r.token = some t
  /-- A token is from this call, or from an earlier one, not refused since, and current. -/
  token : ∀ e ∈ x.replies, ∀ t, e.Bears t → ∃ S : Session, S.token = t ∧
    ((∃ f ∈ x.replies, c.Grants S f) ∨
      c.Obtained history S ∧ ∃ now, ⟨.now, now⟩ ∈ x.replies ∧ S.IsCurrent now)
  once : x.replies.Pairwise fun e f => ¬ (c.LogsIn e ∧ c.LogsIn f)
  /-- A token is asked for when all sessions that were not refused have run out. -/
  needed : ∀ e ∈ x.replies, c.LogsIn e → ∀ S, c.Obtained history S →
    ∃ now, ⟨.now, now⟩ ∈ x.replies ∧ ¬ S.IsCurrent now
  denied : c.Denied x.replies → (∀ e ∈ x.replies, ∀ t, ¬ e.Bears t) ∧ x.after = x.before
  /-- A request with a token is sent, unless there is no token, or no place to send it to. -/
  sent : (∃ e ∈ x.replies, ∃ t, e.Bears t) ∨ c.Denied x.replies ∨ ∃ S, c.Placeless S ∧
    ((∃ e ∈ x.replies, c.Grants S e) ∨ c.Obtained history S)
  /-- Nothing is asked after a request with a token. -/
  unrepeated : x.replies.Pairwise fun e _ => ∀ t, ¬ e.Bears t

namespace RestClient

variable {c : RestClient} {history es : List RestReply} {e : RestReply} {got : Option Session}
  {S : Session} {x : Round}

theorem Opening.not_bears (h : Opening c history es got) : ∀ e ∈ es, ∀ t, ¬ e.Bears t := by
  intro e he t
  rcases h.kinds e he with ⟨now, rfl⟩ | hlogin
  · exact id
  · exact not_bears_of_logsIn hlogin t

theorem Opening.login_of_http (h : Opening c history es got) {r : Http.Request}
    {a : Except String Http.Response} (he : ⟨.http r, a⟩ ∈ es) : c.LogsIn ⟨.http r, a⟩ := by
  rcases h.kinds _ he with ⟨now, hnow⟩ | hlogin
  · cases hnow
  · exact hlogin

theorem Opening.unrepeated (h : Opening c history es got) :
    es.Pairwise fun e _ => ∀ t, ¬ e.Bears t :=
  List.pairwise_of_forall_mem_list fun e he _ _ => h.not_bears e he

/-- A call that sends no request with a token. -/
theorem Opening.disciplined (h : Opening c history x.replies got)
    (hafter : got = none → x.after = x.before) (hplace : ∀ S, got = some S → c.Placeless S) :
    x.Disciplined c history where
  kinds _ _ he := .inl (h.login_of_http he)
  token e he t ht := absurd ht (h.not_bears e he t)
  once := h.once
  needed := h.needed
  denied hdenied := ⟨h.not_bears, hafter (h.denied.mp hdenied)⟩
  sent := by
    cases got with
    | none => exact .inr (.inl (h.denied.mpr rfl))
    | some S => exact .inr (.inr ⟨S, hplace S rfl, (h.session S rfl).imp id And.left⟩)
  unrepeated := h.unrepeated

/-- A call that sends one, with the session that it got. -/
theorem Opening.disciplined_concat (h : Opening c history es (some S)) (he : e.Bears S.token)
    (hx : x.replies = es ++ [e]) : x.Disciplined c history where
  kinds r a hr := by
    rw [hx] at hr
    rcases List.mem_append.mp hr with hr | hr
    · exact .inl (h.login_of_http hr)
    · obtain rfl := List.mem_singleton.mp hr
      exact .inr ⟨S.token, he⟩
  token f hf t ht := by
    rw [hx] at hf ⊢
    rcases List.mem_append.mp hf with hf | hf
    · exact absurd ht (h.not_bears f hf t)
    · rw [List.mem_singleton.mp hf] at ht
      refine ⟨S, he.unique ht, (h.session S rfl).imp ?_ ?_⟩
      · exact fun ⟨g, hg, hgrants⟩ => ⟨g, List.mem_append_left _ hg, hgrants⟩
      · exact fun ⟨hS, now, hnow, hcurrent⟩ => ⟨hS, now, List.mem_append_left _ hnow, hcurrent⟩
  once := by
    rw [hx]
    refine List.pairwise_append.mpr ⟨h.once, List.pairwise_singleton _ _, ?_⟩
    rintro f hf g hg ⟨-, hlogin⟩
    rw [List.mem_singleton.mp hg] at hlogin
    exact not_bears_of_logsIn hlogin _ he
  needed f hf hlogin S' hS := by
    rw [hx] at hf ⊢
    rcases List.mem_append.mp hf with hf | hf
    · obtain ⟨now, hnow, hold⟩ := h.needed f hf hlogin S' hS
      exact ⟨now, List.mem_append_left _ hnow, hold⟩
    · rw [List.mem_singleton.mp hf] at hlogin
      exact absurd he (not_bears_of_logsIn hlogin _)
  denied hdenied := by
    rw [hx] at hdenied
    refine absurd (h.denied.mp (hdenied.imp ?_ id)) (Option.some_ne_none S)
    rintro ⟨f, hf, hlogin, hfailed⟩
    rcases List.mem_append.mp hf with hf | hf
    · exact ⟨f, hf, hlogin, hfailed⟩
    · rw [List.mem_singleton.mp hf] at hlogin
      exact absurd he (not_bears_of_logsIn hlogin _)
  sent := .inl ⟨e, by simp [hx], S.token, he⟩
  unrepeated := by
    rw [hx]
    exact List.pairwise_append.mpr ⟨h.unrepeated, List.pairwise_singleton _ _,
      fun f hf _ _ => h.not_bears f hf⟩

theorem Converses.disciplined (h : c.Converses x.before x.replies x.after)
    (hknown : c.Accounts history x.before) (hclock : ClockRuns (history ++ x.replies)) :
    x.Disciplined c history := by
  obtain ⟨call, before, replies, after⟩ := x
  cases h with
  | failed hopens =>
    have hopening := hopens.opening hknown hclock
    exact hopening.disciplined (fun _ => rfl) fun S h => absurd h.symm (Option.some_ne_none S)
  | unsent hopens hplace =>
    have hopening := hopens.opening hknown hclock
    refine hopening.disciplined (fun h => absurd h (Option.some_ne_none _)) fun S h => ?_
    exact Option.some.inj h ▸ hplace
  | kept hopens he => exact (hopens.opening hknown hclock.init).disciplined_concat he rfl
  | dropped hopens he => exact (hopens.opening hknown hclock.init).disciplined_concat he rfl

theorem Converses.after_of_refused (h : c.Converses x.before x.replies x.after)
    (hknown : c.Accounts history x.before) (hclock : ClockRuns (history ++ x.replies))
    (he : e ∈ x.replies) (hrefused : e.Refused) : x.after = none := by
  obtain ⟨call, before, replies, after⟩ := x
  obtain ⟨t, ht⟩ := exists_bears_of_refused hrefused
  cases h with
  | failed hopens => exact absurd ht ((hopens.opening hknown hclock).not_bears e he t)
  | unsent hopens => exact absurd ht ((hopens.opening hknown hclock).not_bears e he t)
  | kept hopens _ hkept =>
    rcases List.mem_append.mp he with he | he
    · exact absurd ht ((hopens.opening hknown hclock.init).not_bears e he t)
    · rw [List.mem_singleton.mp he] at hrefused
      exact absurd hrefused hkept
  | dropped => rfl

/-- Without a session a token is asked for, if there is a place to ask. -/
theorem Converses.exists_login {left : Option Session} (h : c.Converses none es left)
    (hurl : ∃ url, joined c.identity "auth/tokens" = .ok url) : ∃ e ∈ es, c.LogsIn e := by
  obtain ⟨url, hurl⟩ := hurl
  have hopens {es : List RestReply} {got : Option Session} (h : c.Opens none es got) :
      ∃ e ∈ es, c.LogsIn e := by
    cases h with
    | unknown hauth =>
      cases hauth with
      | unsent hunsent => exact absurd hurl (hunsent url)
      | failed hlogin => exact ⟨_, List.mem_singleton_self _, hlogin⟩
      | granted hgrants => exact ⟨_, List.mem_singleton_self _, hgrants.1⟩
  have hconcat {es : List RestReply} {e : RestReply} (h : ∃ f ∈ es, c.LogsIn f) :
      ∃ f ∈ es ++ [e], c.LogsIn f := by
    obtain ⟨f, hf, hlogin⟩ := h
    exact ⟨f, List.mem_append_left _ hf, hlogin⟩
  cases h with
  | failed h => exact hopens h
  | unsent h => exact hopens h
  | kept h => exact hconcat (hopens h)
  | dropped h => exact hconcat (hopens h)

end RestClient

namespace Services

variable {σ : Type} (network : (r : RestRequest) → σ → r.Answer × σ)

/-- A run of calls, one after the other. -/
def rounds (client : RestClient) : List Call → Option Session × σ → List Round
  | [], _ => []
  | c :: cs, start =>
    let x := call network client c start
    ⟨c, start.1, (client.answer c start.1).replies network start.2, x.2.1⟩ :: rounds client cs x.2

variable {network} {client : RestClient}

/-- Each call makes one conversation, and takes over the session that the one before has left. -/
def Linked (client : RestClient) : Option Session → List Round → Prop
  | _, [] => True
  | known, x :: xs =>
    x.before = known ∧ client.Converses x.before x.replies x.after ∧ Linked client x.after xs

theorem converses_call (client : RestClient) (c : Call) (start : Option Session × σ) :
    client.Converses start.1 ((client.answer c start.1).replies network start.2)
      (call network client c start).2.1 :=
  ((client.calls_call c).does start.1).tells.runWith _ start.2

theorem linked_rounds (network : (r : RestRequest) → σ → r.Answer × σ) (client : RestClient)
    (cs : List Call) (start : Option Session × σ) :
    Linked client start.1 (rounds network client cs start) := by
  induction cs generalizing start with
  | nil => trivial
  | cons c cs ih => exact ⟨rfl, converses_call client c start, ih _⟩

/-- What is known of past sessions at the start of any call. -/
theorem Linked.accounts {known : Option Session} {past future : List Round} {x : Round}
    {history : List RestReply} (h : Linked client known (past ++ x :: future))
    (hknown : client.Accounts history known) :
    client.Accounts (history ++ past.flatMap Round.replies) x.before ∧
      client.Converses x.before x.replies x.after ∧ Linked client x.after future := by
  induction past generalizing known history with
  | nil =>
    obtain ⟨rfl, hconverses, hfuture⟩ := h
    refine ⟨?_, hconverses, hfuture⟩
    rwa [List.flatMap_nil, List.append_nil]
  | cons y past ih =>
    obtain ⟨rfl, hconverses, hrest⟩ := h
    rw [List.flatMap_cons, ← List.append_assoc]
    exact ih hrest (hknown.converses hconverses)

/-- At times that never go back, every call of a run is disciplined, and after a call with a
request that was refused the next call asks for a token. -/
theorem rounds_disciplined (network : (r : RestRequest) → σ → r.Answer × σ) (client : RestClient)
    (cs : List Call) (s : σ) {past future : List Round} {x : Round}
    (h : rounds network client cs (none, s) = past ++ x :: future)
    (hclock : ClockRuns ((past ++ [x]).flatMap Round.replies)) :
    x.Disciplined client (past.flatMap Round.replies) ∧
    ((∃ e ∈ x.replies, e.Refused) → ∀ y ∈ future.head?, ∃ e ∈ y.replies, client.LogsIn e) := by
  have hlinked := linked_rounds network client cs (none, s)
  rw [h] at hlinked
  obtain ⟨hknown, hconverses, hfuture⟩ := hlinked.accounts RestClient.Accounts.start
  rw [List.nil_append] at hknown
  rw [List.flatMap_append, List.flatMap_singleton] at hclock
  have hdisciplined := hconverses.disciplined hknown hclock
  refine ⟨hdisciplined, ?_⟩
  rintro ⟨e, he, hrefused⟩ y hy
  obtain ⟨future, rfl⟩ : ∃ ys, future = y :: ys := List.head?_eq_some_iff.mp hy
  obtain ⟨hbefore, hnext, -⟩ := hfuture
  rw [hbefore, hconverses.after_of_refused hknown hclock he hrefused] at hnext
  -- The token that was refused came from a login, so there is a place to log in.
  obtain ⟨t, ht⟩ := RestClient.exists_bears_of_refused hrefused
  obtain ⟨S, -, ⟨f, -, hgrants⟩ | ⟨hobtained, -⟩⟩ := hdisciplined.token e he t ht
  · exact hnext.exists_login (RestClient.joined_of_logsIn hgrants.1)
  · exact hnext.exists_login hobtained.exists_url

/-! A service that refuses every token the second time. -/

/-- An entry of the catalog. -/
def sampleEndpoint (service url : String) : Json.Value :=
  .object [("type", service), ("endpoints", .array [.object [("interface", "public"),
    ("region", "RegionOne"), ("url", url)]])]

/-- The answer to a login. -/
def sampleGrant : Http.Response where
  status := 201
  contentType := some Http.jsonType
  subjectToken := some "t"
  body := Utf8.encode (Json.Value.object [("token", .object [
    ("expires_at", "2030-01-01T00:00:00Z"),
    ("catalog", .array [sampleEndpoint "network" "http://net/",
      sampleEndpoint "compute" "http://nova/"])])]).text

/-- Counts the requests that had a token. -/
def onceOnly : (r : RestRequest) → ℕ → r.Answer × ℕ
  | .now, n => (default, n)
  | .http r, n =>
    if r.token = none then (.ok sampleGrant, n)
    else (.ok { status := if n % 2 = 0 then 204 else 401 }, n + 1)

def sampleClient : RestClient where
  account := { authUrl := "http://keystone/v3" }
  identity := ⟨"http".toList, some { host := .name "keystone".toList },
    .segments ["v3".toList, []], none, none⟩

/-- The second call has its token refused, so the third one logs in. -/
theorem rounds_disciplined_onceOnly : ∃ past x y,
    rounds onceOnly sampleClient [.deletePort "p", .deletePort "p", .deletePort "q"] (none, 0) =
      past ++ [x, y] ∧
    x.Disciplined sampleClient (past.flatMap Round.replies) ∧
    (∃ e ∈ x.replies, e.Refused) ∧ ∃ e ∈ y.replies, sampleClient.LogsIn e := by
  obtain ⟨hfirst, hnext⟩ := rounds_disciplined onceOnly sampleClient
    [.deletePort "p", .deletePort "p", .deletePort "q"] 0
    (show _ = [_] ++ _ :: [_] from rfl) (by decide +kernel)
  have hlogin := hnext (by decide +kernel) _ rfl
  exact ⟨[_], _, _, rfl, hfirst, by decide +kernel, hlogin⟩

end Services

end ContainerPorts.Cloud
