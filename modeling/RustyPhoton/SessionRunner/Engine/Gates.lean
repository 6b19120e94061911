import RustyPhoton.SessionRunner.Engine.Ledger

/-!
# What a trigger's gates rely on

The completions of a trigger and the clock readings of a trace, the steps that have nothing to do
with firings, and what is held of a trigger between them: the blackboard knows of its recorded
completions, and a firing that is queued was due when its gates were read.
-/

set_option linter.unusedSectionVars false

namespace RustyPhoton.SessionRunner.Engine

open Lib Traced

def Mark.reading : Mark → Option DateTime
  | .clock t => some t
  | _ => none

/-- The clock readings of a trace. -/
def readings (l : Trace) : List DateTime := (marks l).filterMap Mark.reading

def Mark.firing (i : Nat) : Mark → Option DateTime
  | .triggerCompleted j at_ => if j = i then some at_ else none
  | _ => none

/-- The recorded completions of the trigger at an index. -/
def firingsOf (i : Nat) (l : Trace) : List DateTime := (marks l).filterMap (Mark.firing i)

/-- Whether a mark tells of a firing. -/
def Mark.isFiring : Mark → Bool
  | .queued _ _ | .triggerCompleted _ _ => true
  | _ => false

/-- No trigger action ran. -/
def ActionFree (l : Trace) : Prop := ∀ j sub halt, ¬ Occurs (.span (.action j) sub halt) l

theorem readings_append (l l' : Trace) : readings (l ++ l') = readings l ++ readings l' := by
  simp [readings]

theorem firingsOf_append (i : Nat) (l l' : Trace) :
    firingsOf i (l ++ l') = firingsOf i l ++ firingsOf i l' := by
  simp [firingsOf]

theorem readings_span (label : Label) (l : Trace) (o : Option Halt) :
    readings [.span label l o] = readings l := by
  simp only [readings, marks_span]

theorem firingsOf_span (i : Nat) (label : Label) (l : Trace) (o : Option Halt) :
    firingsOf i [.span label l o] = firingsOf i l := by
  simp only [firingsOf, marks_span]

theorem actionFree_nil : ActionFree [] := fun _ _ _ => not_occurs_nil

theorem actionFree_mark (m : Mark) : ActionFree [.mark m] := fun _ _ _ hocc => by
  cases occurs_mark.mp hocc

theorem ActionFree.append {l l' : Trace} (h : ActionFree l) (h' : ActionFree l') :
    ActionFree (l ++ l') := fun j sub halt hocc =>
  (occurs_append.mp hocc).elim (h j sub halt) (h' j sub halt)

theorem ActionFree.span {label : Label} {l : Trace} {o : Option Halt} (h : ActionFree l)
    (hlabel : ∀ j, label ≠ .action j) : ActionFree [.span label l o] := by
  intro j sub halt hocc
  rcases occurs_span.mp hocc with heq | hocc
  · exact hlabel j (Node.span.inj heq).1.symm
  · exact h j sub halt hocc

/-! ## The clock -/

section Clock

variable [Crates]

/-- The first instants of the years 0 and 10000. -/
def yearZero : DateTime := -62167219200 * 10 ^ 9

def yearTenThousand : DateTime := 253402300800 * 10 ^ 9

/-- An instant RFC 3339 can write, which `chrono` reads back as it wrote it. -/
structure Readable (t : DateTime) : Prop where
  fromYearZero : yearZero ≤ t
  toYearTenThousand : t < yearTenThousand
  roundTrip : Crates.parseRfc3339 (Crates.toRfc3339 t) = .ok t

/-- A clock that does not step back, from a reading on. -/
def Ticks : DateTime → List DateTime → Prop
  | _, [] => True
  | now, t :: rest => now ≤ t ∧ Readable t ∧ Ticks t rest

/-- The last of the readings. -/
def latest : DateTime → List DateTime → DateTime
  | now, [] => now
  | _, t :: rest => latest t rest

theorem latest_append (now : DateTime) (a b : List DateTime) :
    latest now (a ++ b) = latest (latest now a) b := by
  induction a generalizing now with
  | nil => rfl
  | cons t rest ih => exact ih t

theorem ticks_append {now : DateTime} {a b : List DateTime} :
    Ticks now (a ++ b) ↔ Ticks now a ∧ Ticks (latest now a) b := by
  induction a generalizing now with
  | nil => simp [Ticks, latest]
  | cons t rest ih => simp only [List.cons_append, Ticks, latest, ih, and_assoc]

theorem Ticks.le_latest {now : DateTime} {a : List DateTime} (h : Ticks now a) :
    now ≤ latest now a := by
  induction a generalizing now with
  | nil => exact le_rfl
  | cons t rest ih => exact h.1.trans (ih h.2.2)

/-- A clock whose readings never decrease. -/
theorem ticks_of_pairwise {now : DateTime} {a : List DateTime}
    (hreadable : ∀ t ∈ a, Readable t) (hsorted : (now :: a).Pairwise (· ≤ ·)) : Ticks now a := by
  induction a generalizing now with
  | nil => trivial
  | cons t rest ih =>
    obtain ⟨hfirst, hrest⟩ := List.pairwise_cons.mp hsorted
    exact ⟨hfirst t List.mem_cons_self, hreadable t List.mem_cons_self,
      ih (fun u hu => hreadable u (List.mem_cons_of_mem t hu)) hrest⟩

end Clock

/-! ## Idle steps -/

section Idle

variable [Crates] {σ : Type} {x : Exec σ} {s t u : State σ} {l l' : Trace}

/-- Steps without a firing. -/
structure NoFiring (s : State σ) (l : Trace) (t : State σ) : Prop where
  queued : t.queued = s.queued
  marks : ∀ m ∈ marks l, m.isFiring = false
  free : ActionFree l

/-- Steps that have nothing to do with the firings or their bookkeeping. -/
structure Idle (s : State σ) (l : Trace) (t : State σ) : Prop extends NoFiring s l t where
  scope : t.inTriggerAction = s.inTriggerAction
  keeps : KeepsBookkeeping s l none t

theorem NoFiring.still (hqueued : t.queued = s.queued) : NoFiring s [] t :=
  ⟨hqueued, by simp, actionFree_nil⟩

theorem NoFiring.of_mark {m : Mark} (hm : m.isFiring = false) (hqueued : t.queued = s.queued) :
    NoFiring s [.mark m] t :=
  ⟨hqueued, by simpa using hm, actionFree_mark m⟩

theorem NoFiring.trans (h : NoFiring s l t) (h' : NoFiring t l' u) : NoFiring s (l ++ l') u where
  queued := h'.queued.trans h.queued
  marks m hm := by
    rw [marks_append] at hm
    exact (List.mem_append.mp hm).elim (h.marks m) (h'.marks m)
  free := h.free.append h'.free

theorem NoFiring.span {label : Label} {o : Option Halt} (h : NoFiring s l t)
    (hlabel : ∀ j, label ≠ .action j) : NoFiring s [.span label l o] t :=
  ⟨h.queued, by rw [marks_span]; exact h.marks, h.free.span hlabel⟩

theorem NoFiring.firings (h : NoFiring s l t) (i : Nat) : firingsOf i l = [] := by
  refine List.filterMap_eq_nil_iff.mpr fun m hm => ?_
  have hquiet := h.marks m hm
  cases m with
  | triggerCompleted j at_ => cases hquiet
  | _ => rfl

theorem Idle.still (hscope : t.inTriggerAction = s.inTriggerAction) (hqueued : t.queued = s.queued)
    (hsession : t.session = s.session) (hfile : t.file = s.file) : Idle s [] t :=
  ⟨.still hqueued, hscope, .of_books hsession hfile⟩

theorem Idle.of_mark {m : Mark} (hm : m.isFiring = false)
    (hscope : t.inTriggerAction = s.inTriggerAction) (hqueued : t.queued = s.queued)
    (hsession : t.session = s.session) (hfile : t.file = s.file) : Idle s [.mark m] t :=
  ⟨.of_mark hm hqueued, hscope, .of_books hsession hfile⟩

theorem Idle.trans (h : Idle s l t) (h' : Idle t l' u) : Idle s (l ++ l') u :=
  ⟨h.toNoFiring.trans h'.toNoFiring, h'.scope.trans h.scope,
    keepsBookkeeping_composes.trans h.keeps h'.keeps⟩

theorem idle_ledger (x : Exec σ) : Ledger x (fun _ => True) fun _ s l _ t => Idle s l t where
  composes _ := ⟨fun _ => .still rfl rfl rfl rfl, Idle.trans⟩
  mono _ h := h
  any _ h := h
  silent ht := .still (congrArg Books.inTriggerAction ht) (congrArg Books.queued ht)
    (congrArg Books.session ht) (congrArg Books.file ht)
  span hlabel h := by
    refine ⟨h.toNoFiring.span fun j hj => ?_, h.scope, h.keeps⟩
    subst hj
    cases hlabel
  clock _ _ _ := .of_mark rfl rfl rfl rfl rfl
  snapshot _ _ := .of_mark rfl rfl rfl rfl rfl
  called _ _ _ _ _ _ := .of_mark rfl rfl rfl rfl rfl
  stopRaised _ _ := .of_mark rfl rfl rfl rfl rfl
  receive _ _ _ := .of_mark rfl rfl rfl rfl rfl
  synthesize _ _ _ := .of_mark rfl rfl rfl rfl rfl
  consume _ name s := by
    simp only [consumeOccurrence, Traced.step]
    split
    · exact .of_mark rfl rfl rfl rfl rfl
    · split
      · exact .of_mark rfl rfl rfl rfl rfl
      · exact .still rfl rfl rfl rfl
  commit _ ins writes _ _ s := by
    obtain ⟨hlog, h, f, hst, -⟩ := commit_run x ins writes s rfl
    have hkeeps := commit_keepsBookkeeping x ins writes s
    rw [hlog, hst] at hkeeps ⊢
    exact ⟨.of_mark rfl rfl, rfl, hkeeps⟩

/-- Idle steps, then at most one firing queued at an index. -/
inductive Queues (j : Nat) (s : State σ) (l : Trace) (t : State σ) : Prop where
  | idle (h : Idle s l t)
  | queued {l' : Trace} {u : State σ} {payload : Value} (h : Idle s l' u)
      (hl : l = l' ++ [.mark (.queued j (u.queued.getD j none).isSome)])
      (ht : t = { u with queued := u.queued.set j (some payload) })

theorem Queues.after {j : Nat} (h : Idle s l t) (h' : Queues j t l' u) : Queues j s (l ++ l') u := by
  cases h' with
  | idle h' => exact .idle (h.trans h')
  | queued h' hl ht => exact .queued (h.trans h') (by rw [hl, List.append_assoc]) ht

/-- An idle computation, then one that may queue. -/
theorem Queues.bind {j : Nat} {α β : Type} {m : M σ α} {f : α → M σ β}
    (hm : Sat (fun s l _ t => Idle s l t) m) (hf : ∀ a, Sat (fun s l _ t => Queues j s l t) (f a)) :
    Sat (fun s l _ t => Queues j s l t) (m >>= f) := by
  intro s
  rcases halt_bind m f s with ⟨-, hlog, -, hst⟩ | ⟨a, -, -, hlog, -, hst⟩
  · rw [hlog, hst]
    exact .idle (hm s)
  · rw [hlog, hst]
    exact (hf a _).after (hm s)

theorem enqueueWhen_queues (j : Nat) (trigger : Trigger) (payload : Value) :
    Sat (fun s l _ t => Queues j s l t) (enqueueWhen x j trigger payload) := by
  refine Queues.bind (((idle_ledger x).steps.turns []).gatePasses trigger _ payload _)
    fun passes => ?_
  split
  · exact fun s => .queued (.still rfl rfl rfl rfl) rfl rfl
  · exact fun s => .idle (.still rfl rfl rfl rfl)

/-- What a poll does behind the gates. -/
theorem pollCall_queues (j : Nat) (trigger : Trigger) (tool : String)
    (args : List (String × ArgValue)) :
    Sat (fun s l _ t => Queues j s l t) (do
      match ← pollArgs x args with
      | some args => pollCall x j trigger tool args
      | none => Pure.pure () : M σ Unit) := by
  have hidle := (idle_ledger x).steps
  refine Queues.bind ((hidle.turns []).pollArgs args) fun args => ?_
  cases args with
  | none => exact fun s => .idle (.still rfl rfl rfl rfl)
  | some args =>
    refine Queues.bind (hidle.call [] tool args) fun answer => ?_
    cases answer with
    | error message => exact fun s => .idle (.still rfl rfl rfl rfl)
    | ok payload =>
      exact Queues.bind ((hidle.turns []).acceptCorrection payload) fun _ =>
        enqueueWhen_queues j trigger payload

end Idle

/-! ## What is held of a trigger

`done` are the recorded completions of the session so far and `now` is the last clock reading. What
is said of times is said under `clocked`, that the clock does not step back; the rest does not
depend on it. -/

section Held

variable [Crates] {σ : Type}

/-- The blackboard knows of these completions. -/
structure Recorded (clocked : Prop) (trigger : Trigger) (done : List DateTime) (session : Value) :
    Prop where
  firedOnce : trigger.once = true → done ≠ [] → triggerFiredOnce session trigger.id = true
  lastFired : clocked → ∀ at_ ∈ done, ∃ last,
    triggerLastFired session trigger.id = some last ∧ at_ ≤ last

/-- The trigger may fire, by its `once` and its `cooldown`. -/
structure Due (clocked : Prop) (trigger : Trigger) (done : List DateTime) (now : DateTime) :
    Prop where
  once : trigger.once = true → done = []
  cooled : clocked → ∀ c : Nat, trigger.cooldown = some c → ∀ at_ ∈ done, at_ + c ≤ now

structure Held (clocked : Prop) (i : Nat) (trigger : Trigger) (done : List DateTime)
    (now : DateTime) (s : State σ) : Prop where
  session : IsSession s.session
  content : IsSession (loadSession s.file)
  single : trigger.once = true → done.length ≤ 1
  spaced : clocked → ∀ c : Nat, trigger.cooldown = some c → done.Pairwise fun a b => a + (c : Int) ≤ b
  past : clocked → ∀ at_ ∈ done, yearZero ≤ at_ ∧ at_ ≤ now
  memory : Recorded clocked trigger done s.session
  file : Recorded clocked trigger done (loadSession s.file)
  /-- A queued firing is one that was due. -/
  slot : (s.queued.getD i none).isSome = true → Due clocked trigger done now

variable {clocked : Prop} {i : Nat} {trigger : Trigger} {done : List DateTime}
  {now now' : DateTime} {s t : State σ} {l : Trace}

theorem Recorded.of_entry {session session' : Value}
    (hentry : triggerEntry session' trigger.id = triggerEntry session trigger.id)
    (h : Recorded clocked trigger done session) : Recorded clocked trigger done session' := by
  have hfired : triggerFiredOnce session' trigger.id = triggerFiredOnce session trigger.id := by
    rw [triggerFiredOnce, triggerFiredOnce, hentry]
  have hlast : triggerLastFired session' trigger.id = triggerLastFired session trigger.id := by
    rw [triggerLastFired, triggerLastFired, hentry]
  exact ⟨fun honce hne => hfired.trans (h.firedOnce honce hne),
    fun hc at_ hat => by rw [hlast]; exact h.lastFired hc at_ hat⟩

theorem Due.mono (h : Due clocked trigger done now) (hnow : clocked → now ≤ now') :
    Due clocked trigger done now' :=
  ⟨h.once, fun hc c hcool at_ hat => (h.cooled hc c hcool at_ hat).trans (hnow hc)⟩

/-- What is held is kept by steps that keep the trigger's slot and its entry, in memory and, written
or not, in the file. -/
theorem Held.keep (h : Held clocked i trigger done now s) (hnow : clocked → now ≤ now')
    (hqueued : t.queued = s.queued) (hsession : IsSession t.session)
    (hcontent : IsSession (loadSession t.file))
    (hmem : triggerEntry t.session trigger.id = triggerEntry s.session trigger.id)
    (hfile : triggerEntry (loadSession t.file) trigger.id =
        triggerEntry (loadSession s.file) trigger.id ∨
      triggerEntry (loadSession t.file) trigger.id = triggerEntry s.session trigger.id) :
    Held clocked i trigger done now' t := by
  refine ⟨hsession, hcontent, h.single, h.spaced, fun hc at_ hat => ?_, h.memory.of_entry hmem, ?_,
    fun hslot => ?_⟩
  · exact ⟨(h.past hc at_ hat).1, (h.past hc at_ hat).2.trans (hnow hc)⟩
  · rcases hfile with hfile | hfile
    · exact h.file.of_entry hfile
    · exact h.memory.of_entry hfile
  · rw [hqueued] at hslot
    exact (h.slot hslot).mono hnow

/-- Idle steps keep what is held. -/
theorem Held.idle (h : Held clocked i trigger done now s) (hidle : Idle s l t)
    (hticks : clocked → Ticks now (readings l)) :
    Held clocked i trigger done (latest now (readings l)) t := by
  obtain ⟨hsession, hcontent, hkept⟩ := hidle.keeps h.session
  obtain ⟨hmem, hfile⟩ := hkept triggersKey (by decide)
  exact h.keep (fun hc => (hticks hc).le_latest) hidle.queued hsession (hcontent h.content)
    (triggerEntry_congr hmem _) (hfile.imp (triggerEntry_congr · _) (triggerEntry_congr · _))

/-- A firing is queued or taken: what a slot change must not break. -/
theorem Held.withQueued (h : Held clocked i trigger done now s) {queued : List (Option Value)}
    (hslot : (queued.getD i none).isSome = true → Due clocked trigger done now) :
    Held clocked i trigger done now { s with queued := queued } :=
  { h with slot := hslot }

/-- The gates of a trigger that is not closed: no firing is queued, and it is due. -/
theorem gated_open (x : Exec σ) (j : Nat) (trigger : Trigger) {s : State σ}
    (hopen : (gated x j trigger s).out = .ok false) :
    s.queued.getD j none = none ∧
      (trigger.once = true → triggerFiredOnce s.session trigger.id = false) ∧
      ∀ c last, trigger.cooldown = some c → triggerLastFired s.session trigger.id = some last →
        ∃ now, readings (gated x j trigger s).log = [now] ∧ (min c chronoMax : Nat) ≤ now - last := by
  unfold gated at hopen ⊢
  rw [read_bind_run] at hopen ⊢
  by_cases hslot : (s.queued.getD j none).isSome = true
  · rw [if_pos hslot] at hopen
    cases hopen
  · rw [if_neg hslot] at hopen ⊢
    refine ⟨Option.not_isSome_iff_eq_none.mp hslot, ?_⟩
    by_cases hfired : (trigger.once && triggerFiredOnce s.session trigger.id) = true
    · rw [if_pos hfired] at hopen
      cases hopen
    · rw [if_neg hfired] at hopen ⊢
      refine ⟨fun honce => by simpa [honce] using hfired, fun c last hc hlast => ?_⟩
      simp only [hc, hlast] at hopen ⊢
      have hclock : Engine.now x s = ⟨.ok (x.host.now s.host).1,
        [.mark (.clock (x.host.now s.host).1)], { s with host := (x.host.now s.host).2 }⟩ := rfl
      rw [bind_run_of_ok hclock] at hopen ⊢
      have hlate : ¬ (x.host.now s.host).1 - last < (min c chronoMax : Nat) := by
        simpa using Except.ok.inj hopen
      exact ⟨_, rfl, not_lt.mp hlate⟩

/-- Two instants that RFC 3339 can write are less than the greatest span apart, so a cooldown that is
over is over in full. -/
theorem cooldown_elapsed {at_ last reading : Int} {c : Nat} (hpast : yearZero ≤ at_)
    (hlate : reading < yearTenThousand) (hle : at_ ≤ last)
    (hgate : ((min c chronoMax : Nat) : Int) ≤ reading - last) : at_ + (c : Int) ≤ reading := by
  have hfrom : (-62167219200 * 10 ^ 9 : Int) ≤ at_ := hpast
  have hto : reading < (253402300800 * 10 ^ 9 : Int) := hlate
  simp only [chronoMax] at hgate
  omega

/-- A trigger whose gates are open is due. -/
theorem Held.due {x : Exec σ} {j : Nat} (h : Held clocked i trigger done now s)
    (hopen : (gated x j trigger s).out = .ok false)
    (hticks : clocked → Ticks now (readings (gated x j trigger s).log)) :
    Due clocked trigger done (latest now (readings (gated x j trigger s).log)) := by
  obtain ⟨-, hfired, hcool⟩ := gated_open x j trigger hopen
  refine ⟨fun honce => ?_, fun hc c hcooldown at_ hat => ?_⟩
  · by_contra hne
    have hrecorded := h.memory.firedOnce honce hne
    rw [hfired honce] at hrecorded
    cases hrecorded
  · obtain ⟨last, hlast, hle⟩ := h.memory.lastFired hc at_ hat
    obtain ⟨reading, hreading, hgate⟩ := hcool c last hcooldown hlast
    have hpast := (h.past hc at_ hat).1
    have hreadable := hticks hc
    rw [hreading] at hreadable ⊢
    exact cooldown_elapsed hpast hreadable.2.1.toYearTenThousand hle hgate

end Held

end RustyPhoton.SessionRunner.Engine
