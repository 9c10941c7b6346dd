import ContainerPorts.Link.Binder
import ContainerPorts.Proofs.Link.Retrying

/-!
# Handing over step by step

Eight steps hand a link to a container, each with one call, which is tried again if there is
a policy for it. The first step that fails for good ends the handover. Up to the entry the
calls are made in the namespace that the caller came from, and after it in the container's.
What carries the proof is that a call leaves the caller where it is, unless it enters a
namespace, and that this is the last thing to be done before the caller is sure to go back.
-/
namespace ContainerPorts

open Kernel

/-! ### Where a caller is -/

/-- The namespace that a caller is in, and those it goes back to, the latest first. -/
structure Whereabouts where
  here : Netns
  left : List Netns := []

/-- Going back to a namespace that was left. -/
def Kernel.leaving : Program.Reply kernel := ⟨.leaveNetns, ()⟩

namespace Whereabouts

/-- Only an entry that succeeds leads to another namespace, and leaving leads back from there. -/
def after (w : Whereabouts) : Program.Reply kernel → Whereabouts
  | ⟨.link (.enterNetns n), ⟨.ok _, _⟩⟩ => ⟨n, w.here :: w.left⟩
  | ⟨.leaveNetns, _⟩ =>
    match w.left with
    | [] => w
    | n :: ns => ⟨n, ns⟩
  | _ => w

def afterAll (w : Whereabouts) (es : List (Program.Reply kernel)) : Whereabouts :=
  es.foldl after w

/-- Each reply with the namespace in which it was asked for. -/
def trail (w : Whereabouts) : List (Program.Reply kernel) → List (Netns × Program.Reply kernel)
  | [] => []
  | e :: es => (w.here, e) :: (w.after e).trail es

variable {w : Whereabouts} {es es' : List (Program.Reply kernel)}

theorem afterAll_append : w.afterAll (es ++ es') = (w.afterAll es).afterAll es' :=
  List.foldl_append

theorem trail_append : w.trail (es ++ es') = w.trail es ++ (w.afterAll es).trail es' := by
  induction es generalizing w with
  | nil => rfl
  | cons e es ih => exact congrArg ((w.here, e) :: ·) ih

/-- Replies during which a caller stays where it is. -/
theorem afterAll_of_stays (h : ∀ e ∈ es, w.after e = w) : w.afterAll es = w := by
  induction es with
  | nil => rfl
  | cons e es ih =>
    rw [List.forall_mem_cons] at h
    rw [afterAll, List.foldl_cons, h.1]
    exact ih h.2

theorem trail_of_stays (h : ∀ e ∈ es, w.after e = w) :
    w.trail es = es.map fun e => (w.here, e) := by
  induction es with
  | nil => rfl
  | cons e es ih =>
    rw [List.forall_mem_cons] at h
    rw [trail, h.1, ih h.2, List.map_cons]

end Whereabouts

/-! ### The attempts at one call -/

/-- What is asked for a call, and how it ends for good. Without a policy a call is made once, and
so are the calls that open and enter namespaces. -/
inductive Attempts (policy : Option RetryPolicy) (c : LinkCall) :
    List (Program.Reply kernel) → Except LinkError c.Result → Prop
  | once (t : Timed (Except LinkError c.Result)) (h : policy = none ∨ c.isNetnsCall = true) :
    Attempts policy c [called c t] t.value
  | again {p : RetryPolicy} (fs : List (Timed LinkError)) (last : Timed (Except LinkError c.Result))
    (h : policy = some p) (hc : c.isNetnsCall = false) :
    Attempts policy c (p.failing c 0 fs ++ [called c last]) last.value

section Attempts

variable {policy : Option RetryPolicy} {c : LinkCall} {es : List (Program.Reply kernel)}
  {x : Except LinkError c.Result}

theorem persisting_bind {α β : Type} (m : Program kernel α) (f : α → Program kernel β) :
    persisting policy (m >>= f) =
      (persisting policy m >>= fun a => persisting policy (f a)) := by
  cases policy with
  | none => rfl
  | some p => exact Program.expand_bind p.answer m f

theorem persisting_done_tells {α : Type} {a : α} {Q : List (Program.Reply kernel) → α → Prop}
    (h : Q [] a) : (persisting policy (.done a)).Tells Q := by
  cases policy <;> exact Program.tells_done h

theorem link_tells (policy : Option RetryPolicy) (c : LinkCall) :
    (persisting policy (Kernel.link c)).Tells (Attempts policy c) := by
  cases policy with
  | none => exact Program.tells_ask fun t => Program.tells_done (.once t (.inl rfl))
  | some p =>
    change (p.answer (.link c) >>= fun t => Program.done t.value).Tells _
    rw [RetryPolicy.answer]
    split
    · rename_i hc
      exact Program.tells_ask fun t => Program.tells_done (.once t (.inr hc))
    · rename_i hc
      refine Program.Tells.bind ((p.retry_tells c).mono ?_)
      rintro _ _ ⟨fs, last, rfl, rfl, -, -⟩
      refine Program.tells_done ?_
      rw [List.append_nil]
      exact .again fs last rfl (by simpa using hc)

theorem after_called {w : Whereabouts} (hc : ∀ n, c ≠ .enterNetns n)
    (t : Timed (Except LinkError c.Result)) : w.after (called c t) = w := by
  cases c with
  | enterNetns n => exact absurd rfl (hc n)
  | _ => rfl

theorem after_of_mem_failing {w : Whereabouts} {p : RetryPolicy} (hc : ∀ n, c ≠ .enterNetns n)
    {k : ℕ} {fs : List (Timed LinkError)} : ∀ e ∈ p.failing c k fs, w.after e = w := by
  induction fs generalizing k with
  | nil => exact List.forall_mem_nil _
  | cons f fs ih =>
    rw [RetryPolicy.failing, List.forall_mem_cons, List.forall_mem_cons]
    exact ⟨after_called hc _, rfl, ih⟩

/-- The attempts at a call that enters no namespace leave the caller where it is. -/
theorem Attempts.stays (h : Attempts policy c es x) (hc : ∀ n, c ≠ .enterNetns n)
    (w : Whereabouts) : ∀ e ∈ es, w.after e = w := by
  cases h with
  | once t _ => exact List.forall_mem_singleton.mpr (after_called hc t)
  | again fs last _ _ =>
    rw [List.forall_mem_append, List.forall_mem_singleton]
    exact ⟨after_of_mem_failing hc, after_called hc last⟩

theorem Attempts.exists_of_enter {n : Netns} {x : Except LinkError (LinkCall.enterNetns n).Result}
    (h : Attempts policy (.enterNetns n) es x) :
    ∃ t, es = [called (.enterNetns n) t] ∧ x = t.value := by
  cases h with
  | once t _ => exact ⟨t, rfl, rfl⟩
  | again _ _ _ hc => exact nomatch hc

end Attempts

/-! ### The steps -/

/-- All steps in their order. -/
def BindStep.all : List BindStep :=
  [.lookUp, .openNetns, .move, .enter, .setDown, .rename, .setAddress, .setUp]

/-- What is handed over where, with what is found on the way. -/
structure Handover where
  policy : Option RetryPolicy
  /-- The path of the container's namespace. -/
  path : String
  target : BindTarget
  /-- The namespace that the caller comes from. -/
  origin : Netns
  link : Link
  /-- The container's namespace. -/
  opened : Netns

namespace Handover

/-- The call of a step. -/
def call (h : Handover) : BindStep → LinkCall
  | .lookUp => .byIndex h.target.index
  | .openNetns => .openNetns h.path
  | .move => .move h.link h.opened
  | .enter => .enterNetns h.opened
  | .setDown => .setDown h.link
  | .rename => .rename h.link h.target.destName
  | .setAddress => .setAddress h.link h.target.address
  | .setUp => .setUp h.link

/-- What a step gives that succeeds. -/
def result (h : Handover) : (st : BindStep) → (h.call st).Result
  | .lookUp => h.link
  | .openNetns => h.opened
  | .move => ()
  | .enter => ()
  | .setDown => ()
  | .rename => ()
  | .setAddress => ()
  | .setUp => ()

/-- The namespace in which a step is taken. -/
def place (h : Handover) : BindStep → Netns
  | .setDown => h.opened
  | .rename => h.opened
  | .setAddress => h.opened
  | .setUp => h.opened
  | _ => h.origin

/-- Steps are taken in their order, each in its place, until one of them fails for good. The outcome
names that step. -/
inductive Course (h : Handover) :
    List BindStep → List (Netns × Program.Reply kernel) → Except BindError Unit → Prop
  | finished : Course h [] [] (.ok ())
  | failed {st : BindStep} {es : List (Program.Reply kernel)} {e : LinkError}
    (ht : Attempts h.policy (h.call st) es (.error e)) (later : List BindStep) :
    Course h (st :: later) (es.map fun r => (h.place st, r))
      (.error (.configure st h.path h.target e))
  | passed {st : BindStep} {sts : List BindStep} {es : List (Program.Reply kernel)}
    {log : List (Netns × Program.Reply kernel)} {outcome : Except BindError Unit}
    (ht : Attempts h.policy (h.call st) es (.ok (h.result st))) (hrest : Course h sts log outcome) :
    Course h (st :: sts) ((es.map fun r => (h.place st, r)) ++ log) outcome

end Handover

namespace Binder

theorem run_attempt_bind {α : Type} {path : String} {target : BindTarget} {st : BindStep}
    {c : LinkCall} (k : c.Result → ExceptT BindError (Program kernel) α) :
    (attempt path target st c >>= k).run =
      (Kernel.link c >>= fun r => match r with
        | .ok x => (k x).run
        | .error e => .done (.error (.configure st path target e))) := by
  refine congrArg (Program.ask (S := kernel) (KernelRequest.link c)) (funext fun t => ?_)
  obtain ⟨e | x, took⟩ := t <;> rfl

/-- The rule for one step: it is enough to go on from its result, and to end with its error. -/
theorem attempt_tells {α : Type} {policy : Option RetryPolicy} {path : String} {target : BindTarget}
    {st : BindStep} {c : LinkCall} {k : c.Result → ExceptT BindError (Program kernel) α}
    {Q : List (Program.Reply kernel) → Except BindError α → Prop}
    (hok : ∀ es x, Attempts policy c es (.ok x) →
      (persisting policy (k x).run).Tells fun es' => Q (es ++ es'))
    (herror : ∀ es e, Attempts policy c es (.error e) →
      Q es (.error (.configure st path target e))) :
    (persisting policy (attempt path target st c >>= k).run).Tells Q := by
  rw [run_attempt_bind, persisting_bind]
  refine Program.Tells.bind ((link_tells policy c).mono ?_)
  rintro es (e | x) h
  · exact persisting_done_tells (by simpa using herror es e h)
  · exact hok es x h

end Binder

namespace Handover

open Binder

variable {h : Handover} {α : Type} {w w' : Whereabouts} {st : BindStep} {sts : List BindStep}
  {es es' : List (Program.Reply kernel)} {a : α} {x : Except BindError α}

/-- What a part of the handover did: it took the caller from `w` to `w'` and gave `a`, or failed at
one of its steps and left the caller at `w`. -/
def Walked (h : Handover) (sts : List BindStep) (w w' : Whereabouts) (a : α)
    (es : List (Program.Reply kernel)) (x : Except BindError α) : Prop :=
  (x = .ok a ∧ w.afterAll es = w' ∧ ∀ later log outcome, h.Course later log outcome →
    h.Course (sts ++ later) (w.trail es ++ log) outcome) ∨
  ∃ err, x = .error err ∧ w.afterAll es = w ∧
    ∀ later, h.Course (sts ++ later) (w.trail es) (.error err)

theorem Walked.failed {e : LinkError} (ht : Attempts h.policy (h.call st) es (.error e))
    (hstays : ∀ r ∈ es, w.after r = w) (hw : w.here = h.place st) :
    h.Walked (st :: sts) w w' a es (.error (.configure st h.path h.target e)) := by
  refine .inr ⟨_, rfl, Whereabouts.afterAll_of_stays hstays, fun later => ?_⟩
  rw [Whereabouts.trail_of_stays hstays, hw]
  exact .failed ht _

theorem Walked.passed (ht : Attempts h.policy (h.call st) es (.ok (h.result st)))
    (hstays : ∀ r ∈ es, w.after r = w) (hw : w.here = h.place st)
    (hrest : h.Walked sts w w' a es' x) : h.Walked (st :: sts) w w' a (es ++ es') x := by
  unfold Walked
  rw [Whereabouts.afterAll_append, Whereabouts.trail_append,
    Whereabouts.afterAll_of_stays hstays, Whereabouts.trail_of_stays hstays, hw]
  rcases hrest with ⟨rfl, hafter, hcourse⟩ | ⟨err, rfl, hafter, hcourse⟩
  · refine .inl ⟨rfl, hafter, fun later log outcome hlater => ?_⟩
    rw [List.append_assoc]
    exact .passed ht (hcourse later log outcome hlater)
  · exact .inr ⟨err, rfl, hafter, fun later => .passed ht (hcourse later)⟩

/-- However it is answered, a program does these steps or fails at one of them. -/
def Walks (h : Handover) (m : ExceptT BindError (Program kernel) α) (sts : List BindStep)
    (w w' : Whereabouts) (a : α) : Prop :=
  (persisting h.policy m.run).Tells (h.Walked sts w w' a)

theorem walks_pure (a : α) : h.Walks (pure a) [] w w a :=
  persisting_done_tells (.inl ⟨rfl, rfl, fun _ _ _ hlater => hlater⟩)

/-- A step that leaves the caller where it is, and gives nothing but its success. -/
theorem walks_attempt (st : BindStep)
    {k : (h.call st).Result → ExceptT BindError (Program kernel) α}
    (hc : ∀ n, h.call st ≠ .enterNetns n) (hw : w.here = h.place st)
    (hx : ∀ x, x = h.result st) (hk : h.Walks (k (h.result st)) sts w w' a) :
    h.Walks (attempt h.path h.target st (h.call st) >>= k) (st :: sts) w w' a := by
  refine attempt_tells (fun es x ht => ?_) fun es e ht => .failed ht (ht.stays hc w) hw
  obtain rfl := hx x
  exact hk.mono fun es' y hrest => .passed ht (ht.stays hc w) hw hrest

theorem enter_walks (hw : w.here = h.origin) (a : α) :
    h.Walks (attempt h.path h.target .enter (h.call .enter) >>= fun _ => pure a) [.enter] w
      ⟨h.opened, w.here :: w.left⟩ a := by
  refine attempt_tells (fun es x ht => ?_) fun es e ht => ?_
  · obtain ⟨⟨y, took⟩, rfl, rfl⟩ := ht.exists_of_enter
    refine persisting_done_tells (.inl ⟨rfl, rfl, fun later log outcome hlater => ?_⟩)
    rw [List.append_nil, Whereabouts.trail, hw]
    exact .passed ht hlater
  · obtain ⟨⟨y, took⟩, rfl, rfl⟩ := ht.exists_of_enter
    exact .failed ht (List.forall_mem_singleton.mpr rfl) hw

theorem inside_walks (hw : w.here = h.opened) :
    h.Walks (inside h.path h.target h.link) [.setDown, .rename, .setAddress, .setUp] w w () := by
  have hup : h.Walks (attempt h.path h.target .setUp (h.call .setUp)) [.setUp] w w () := by
    rw [← bind_pure (attempt h.path h.target .setUp (h.call .setUp))]
    exact walks_attempt .setUp nofun hw (fun _ => rfl) (walks_pure ())
  exact walks_attempt .setDown nofun hw (fun _ => rfl) <|
    walks_attempt .rename nofun hw (fun _ => rfl) <|
      walks_attempt .setAddress nofun hw (fun _ => rfl) hup

/-- The steps up to the entry. What they find is only known once they have found it. -/
theorem outside_tells (policy : Option RetryPolicy) (path : String) (target : BindTarget)
    (start : Whereabouts) :
    (persisting policy (outside path target).run).Tells fun es x =>
      ∃ link opened, (Handover.mk policy path target start.here link opened).Walked
        [.lookUp, .openNetns, .move, .enter] start ⟨opened, start.here :: start.left⟩ link
        es x := by
  refine attempt_tells (fun es link hlink => ?_) fun es e he =>
    ⟨default, default, .failed he (he.stays nofun start) rfl⟩
  refine attempt_tells (fun es' opened hopened => ?_) fun es' e he =>
    ⟨link, default, .passed hlink (hlink.stays nofun start) rfl
      (.failed he (he.stays nofun start) rfl)⟩
  let h : Handover := ⟨policy, path, target, start.here, link, opened⟩
  have hentry := enter_walks (h := h) (w := start) rfl link
  have hrest := walks_attempt .move (k := fun _ => _) nofun rfl (fun _ => rfl) hentry
  refine hrest.mono fun es'' x hx => ⟨link, opened, ?_⟩
  exact .passed hlink (hlink.stays nofun start) rfl
    (.passed hopened (hopened.stays nofun start) rfl hx)

end Handover

namespace Binder

theorem leave_tells (policy : Option RetryPolicy) (r : Except BindError Unit) :
    (persisting policy (Kernel.request .leaveNetns >>= fun _ => Program.done r)).Tells
      fun es outcome => es = [leaving] ∧ outcome = r := by
  cases policy with
  | none => exact Program.tells_ask fun _ => Program.tells_done ⟨rfl, rfl⟩
  | some p => exact Program.tells_ask fun _ => Program.tells_done ⟨rfl, rfl⟩

/-- A handover as far as it goes: all that is asked and what comes of it. In the end the caller is
where it was. -/
def HandsOver (policy : Option RetryPolicy) (path : String) (target : BindTarget)
    (start : Whereabouts) (es : List (Program.Reply kernel)) (outcome : Except BindError Unit) :
    Prop :=
  start.afterAll es = start ∧ ∃ link opened log back,
    (Handover.mk policy path target start.here link opened).Course BindStep.all log outcome ∧
    start.trail es = log ++ back ∧ (back = [] ∨ back = [(opened, leaving)])

theorem configure_tells (policy : Option RetryPolicy) (path : String) (target : BindTarget)
    (start : Whereabouts) :
    (persisting policy (configure path target)).Tells (HandsOver policy path target start) := by
  rw [configure, persisting_bind]
  refine Program.Tells.bind ((Handover.outside_tells policy path target start).mono ?_)
  rintro es _ ⟨link, opened, ⟨rfl, hafter, hcourse⟩ | ⟨err, rfl, hafter, hcourse⟩⟩
  · -- The namespace was entered, so the caller goes back whatever the other steps came to.
    let h : Handover := ⟨policy, path, target, start.here, link, opened⟩
    let entered : Whereabouts := ⟨opened, start.here :: start.left⟩
    dsimp only
    rw [persisting_bind]
    have hinside := Handover.inside_walks (h := h) (w := entered) rfl
    refine Program.Tells.bind (Program.Tells.mono hinside fun es' r hr => ?_)
    refine (leave_tells policy r).mono ?_
    rintro _ r ⟨rfl, rfl⟩
    obtain ⟨hstay, hlog⟩ : entered.afterAll es' = entered ∧
        h.Course [.setDown, .rename, .setAddress, .setUp] (entered.trail es') r := by
      rcases hr with ⟨rfl, hstay, hinner⟩ | ⟨err, rfl, hstay, hinner⟩
      · exact ⟨hstay, by simpa using hinner [] [] _ .finished⟩
      · exact ⟨hstay, hinner []⟩
    refine ⟨?_, link, opened, start.trail es ++ entered.trail es', [(opened, leaving)],
      hcourse _ _ _ hlog, ?_, .inr rfl⟩
    · rw [Whereabouts.afterAll_append, Whereabouts.afterAll_append, hafter, hstay]
      rfl
    · rw [Whereabouts.trail_append, Whereabouts.trail_append, hafter, hstay, List.append_assoc]
      rfl
  · refine persisting_done_tells ?_
    rw [List.append_nil]
    exact ⟨hafter, link, opened, _, [], hcourse _, (List.append_nil _).symm, .inl rfl⟩

/-- However the calls are answered, and with a policy or without, a link is handed over by a prefix
of the steps in their order. They end with the first one that fails for good, which is named in the
error. The steps up to the entry are taken in the namespace that the caller came from and the others
in the container's, and in the end the caller is where it was. -/
theorem configure_follows_course (policy : Option RetryPolicy) (path : String) (target : BindTarget)
    {σ : Type} (answer : (r : KernelRequest) → σ → r.Answer × σ) (s : σ) (start : Whereabouts) :
    let program := persisting policy (configure path target)
    let es := program.replies answer s
    let outcome := (program.runWith answer s).1
    start.afterAll es = start ∧ ∃ link opened log back,
      (Handover.mk policy path target start.here link opened).Course BindStep.all log outcome ∧
      start.trail es = log ++ back ∧ (back = [] ∨ back = [(opened, leaving)]) :=
  (configure_tells policy path target start).runWith answer s

end Binder

end ContainerPorts
