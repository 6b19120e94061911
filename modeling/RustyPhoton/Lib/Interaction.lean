import RustyPhoton.Lib.Transition

/-!
# Programs over a shared store

A program makes operations on a store one after the other, and what it does next depends on the
answers. It runs alone, or in turns with others, one operation a turn. A program with one writing
operation at most, whose reads would still lead it to its write at the moment it makes it, leaves the
store it would leave alone; when all do, the turns leave the store that the programs leave one after
the other, in the order of their writes.
-/

namespace RustyPhoton.Lib

/-- The operations of a store. `took` tells from the answer whether a writing operation changed it. -/
structure Interface (σ : Type) where
  Op : Type
  Answer : Op → Type
  perform : (op : Op) → σ → Answer op × σ
  writes : Op → Bool
  took : (op : Op) → Answer op → Bool
  writes_of_took : ∀ op a, took op a = true → writes op = true
  kept : ∀ op s, took op (perform op s).1 = false → (perform op s).2 = s

/-- A program: a reply, or an operation and how it goes on with the answer. -/
inductive Program {σ : Type} (I : Interface σ) (ρ : Type) where
  | done (reply : ρ)
  | call (op : I.Op) (next : I.Answer op → Program I ρ)

namespace Program

variable {σ ρ ρ' : Type} {I : Interface σ}

def bind (f : ρ → Program I ρ') : Program I ρ → Program I ρ'
  | done reply => f reply
  | call op next => call op fun a => (next a).bind f

/-- The operation that is made next. -/
def nextOp : Program I ρ → Option I.Op
  | done _ => none
  | call op _ => some op

/-- The reply and the store of a run without turns of others. -/
def alone : Program I ρ → σ → ρ × σ
  | done reply, s => (reply, s)
  | call op next, s => (next (I.perform op s).1).alone (I.perform op s).2

/-- The reads a program makes on a store that stays, up to its write or its end. -/
def settle : Program I ρ → σ → Program I ρ
  | done reply, _ => done reply
  | call op next, s => if I.writes op then call op next else (next (I.perform op s).1).settle s

@[simp] theorem alone_done (reply : ρ) (s : σ) : (done reply : Program I ρ).alone s = (reply, s) := rfl

@[simp] theorem alone_call (op : I.Op) (next : I.Answer op → Program I ρ) (s : σ) :
    (call op next).alone s = (next (I.perform op s).1).alone (I.perform op s).2 := rfl

section

-- the equations the proofs below unfold, computed once
attribute [local simp] bind nextOp alone settle

end

/-- A program that goes on with another runs one after the other. -/
theorem alone_bind (p : Program I ρ) (f : ρ → Program I ρ') (s : σ) :
    (p.bind f).alone s = (f (p.alone s).1).alone (p.alone s).2 := by
  induction p generalizing s with
  | done reply => rfl
  | call op next ih => exact ih _ _

variable {op : I.Op}

/-- A read takes nothing. -/
theorem took_read (h : I.writes op = false) (a : I.Answer op) : I.took op a = false := by
  cases htook : I.took op a with
  | false => rfl
  | true =>
    rw [I.writes_of_took op a htook] at h
    cases h

/-- A read leaves the store. -/
theorem perform_read (h : I.writes op = false) (s : σ) : (I.perform op s).2 = s :=
  I.kept op s (took_read h _)

theorem settle_read (h : I.writes op = false) (next : I.Answer op → Program I ρ) (s : σ) :
    (call op next).settle s = (next (I.perform op s).1).settle s := by
  rw [settle, h, if_neg Bool.false_ne_true]

theorem settle_write (h : I.writes op = true) (next : I.Answer op → Program I ρ) (s : σ) :
    (call op next).settle s = call op next := by
  rw [settle, if_pos h]

theorem alone_settle (p : Program I ρ) (s : σ) : (p.settle s).alone s = p.alone s := by
  induction p with
  | done reply => rfl
  | call op next ih =>
    rw [settle]
    split
    · rfl
    · next hread =>
        have hstay : (I.perform op s).2 = s := perform_read (by simpa using hread) s
        rw [ih, alone_call, hstay]

/-! ## Programs that write once -/

def ReadsOnly : Program I ρ → Prop
  | done _ => True
  | call op next => I.writes op = false ∧ ∀ a, (next a).ReadsOnly

/-- One writing operation at most, on every path. -/
def WritesOnce : Program I ρ → Prop
  | done _ => True
  | call op next => if I.writes op then ∀ a, (next a).ReadsOnly else ∀ a, (next a).WritesOnce

section

-- the equations the proofs below unfold, computed once
attribute [local simp] ReadsOnly WritesOnce

end

variable {p : Program I ρ}

theorem ReadsOnly.alone (h : p.ReadsOnly) (s : σ) : (p.alone s).2 = s := by
  induction p generalizing s with
  | done reply => rfl
  | call op next ih =>
    rw [alone_call, ih _ (h.2 _), perform_read h.1]

theorem ReadsOnly.writesOnce (h : p.ReadsOnly) : p.WritesOnce := by
  induction p with
  | done reply => trivial
  | call op next ih =>
    rw [WritesOnce, h.1]
    intro a
    exact ih a (h.2 a)

theorem WritesOnce.settle (h : p.WritesOnce) (s : σ) : (p.settle s).WritesOnce := by
  induction p with
  | done reply => exact h
  | call op next ih =>
    rw [Program.settle]
    split
    · exact h
    · next hread =>
        rw [WritesOnce, if_neg hread] at h
        exact ih _ (h _)

variable {f : ρ → Program I ρ'}

theorem ReadsOnly.andThen (h : p.ReadsOnly)
    (hf : ∀ reply, (f reply).ReadsOnly) : (p.bind f).ReadsOnly := by
  induction p with
  | done reply => exact hf reply
  | call op next ih => exact ⟨h.1, fun a => ih a (h.2 a)⟩

/-- Reads before a program that writes once. -/
theorem ReadsOnly.bind (h : p.ReadsOnly)
    (hf : ∀ reply, (f reply).WritesOnce) : (p.bind f).WritesOnce := by
  induction p with
  | done reply => exact hf reply
  | call op next ih =>
    rw [Program.bind, WritesOnce, h.1]
    intro a
    exact ih a (h.2 a)

/-- The reads of a program that goes on with another come before those of the other. -/
theorem ReadsOnly.settle_bind (h : p.ReadsOnly) (f : ρ → Program I ρ') (s : σ) :
    (p.bind f).settle s = (f (p.alone s).1).settle s := by
  induction p with
  | done reply => rfl
  | call op next ih =>
    have hstay : (I.perform op s).2 = s := perform_read h.1 s
    rw [Program.bind, Program.settle, h.1, if_neg Bool.false_ne_true, ih _ (h.2 _), alone_call, hstay]

variable {s : σ}

/-- A program whose reads lead to a write leaves the store that this write leaves. -/
theorem WritesOnce.alone_eq (h : p.WritesOnce)
    (hop : (p.settle s).nextOp = some op) (hwrites : I.writes op = true) :
    (p.alone s).2 = (I.perform op s).2 := by
  have honce : (p.settle s).WritesOnce := h.settle s
  rw [← alone_settle]
  cases hsettled : p.settle s with
  | done reply =>
    rw [hsettled] at hop
    cases hop
  | call op' next =>
    rw [hsettled] at hop honce
    cases hop
    rw [WritesOnce, if_pos hwrites] at honce
    rw [alone_call]
    exact (honce _).alone _

/-! ## What a program has been told -/

/-- A program, the operations it made with their answers, and what is left of it. -/
inductive Trace : Program I ρ → List ((op : I.Op) × I.Answer op) → Program I ρ → Prop where
  | nil (p : Program I ρ) : Trace p [] p
  | snoc {p : Program I ρ} {told : List ((op : I.Op) × I.Answer op)} {op : I.Op}
      {next : I.Answer op → Program I ρ} (h : Trace p told (call op next)) (a : I.Answer op) :
      Trace p (told ++ [⟨op, a⟩]) (next a)

theorem Trace.cons {next : I.Answer op → Program I ρ} {a : I.Answer op}
    {told : List ((op : I.Op) × I.Answer op)} (h : Trace (next a) told p) :
    Trace (call op next) (⟨op, a⟩ :: told) p := by
  induction h with
  | nil => exact (Trace.nil (call op next)).snoc a
  | snoc _ b ih => exact ih.snoc b

variable {q : Program I ρ} {told : List ((op : I.Op) × I.Answer op)}

/-- What a program that was told something made first. -/
theorem Trace.cases_cons (h : Trace p told q) :
    (told = [] ∧ q = p) ∨ ∃ op next a rest, p = call op next ∧ told = ⟨op, a⟩ :: rest ∧
      Trace (next a) rest q := by
  induction h with
  | nil => exact .inl ⟨rfl, rfl⟩
  | @snoc told op next hbefore b ih =>
    right
    rcases ih with ⟨rfl, hp⟩ | ⟨op', next', a, rest, hp, rfl, hrest⟩
    · exact ⟨op, next, b, [], hp.symm, rfl, .nil _⟩
    · exact ⟨op', next', a, rest ++ [⟨op, b⟩], hp, rfl, hrest.snoc b⟩

/-- A program that goes on with another is in the first or in the second. -/
theorem Trace.of_bind {q : Program I ρ'} (h : Trace (p.bind f) told q) :
    (∃ p', Trace p told p' ∧ q = p'.bind f) ∨
      ∃ first second reply, told = first ++ second ∧ Trace p first (done reply) ∧
        Trace (f reply) second q := by
  induction p generalizing told with
  | done reply => exact .inr ⟨[], told, reply, rfl, .nil _, h⟩
  | call op next ih =>
    rcases h.cases_cons with ⟨rfl, rfl⟩ | ⟨op', next', a, rest, hp, rfl, hrest⟩
    · exact .inl ⟨call op next, .nil _, rfl⟩
    · cases hp
      rcases ih a hrest with ⟨p', htrace, hq⟩ | ⟨first, second, reply, rfl, htrace, hsecond⟩
      · exact .inl ⟨p', htrace.cons, hq⟩
      · exact .inr ⟨⟨op, a⟩ :: first, second, reply, rfl, htrace.cons, hsecond⟩

/-- A program that went on with another and is done was done with both. -/
theorem Trace.of_bind_done {reply' : ρ'} (h : Trace (p.bind f) told (done reply')) :
    ∃ first second reply, told = first ++ second ∧ Trace p first (done reply) ∧
      Trace (f reply) second (done reply') := by
  rcases h.of_bind with ⟨p', htrace, hq⟩ | hboth
  · cases p' with
    | done reply =>
      rw [Program.bind] at hq
      refine ⟨told, [], reply, (List.append_nil told).symm, htrace, ?_⟩
      rw [hq]
      exact .nil _
    | call op next => cases hq
  · exact hboth

theorem Trace.done_iff {reply : ρ} :
    Trace (done reply) told q ↔ told = [] ∧ q = done reply := by
  constructor
  · intro h
    rcases h.cases_cons with hnil | ⟨op, next, a, rest, hcall, _⟩
    · exact hnil
    · cases hcall
  · intro h
    rw [h.1, h.2]
    exact .nil _

/-- A program that only reads is left with one that only reads. -/
theorem Trace.readsOnly (h : Trace p told q) (hp : p.ReadsOnly) : q.ReadsOnly := by
  induction h with
  | nil => exact hp
  | snoc _ a ih => exact ih.2 a

/-- A program whose reads would be answered as they were goes on where it is. -/
theorem Trace.settle_eq (h : Trace p told q)
    (hstands : ∀ e ∈ told, I.writes e.1 = false ∧ (I.perform e.1 s).1 = e.2) :
    p.settle s = q.settle s := by
  induction h with
  | nil => rfl
  | @snoc told op next _ a ih =>
    obtain ⟨hread, hanswer⟩ := hstands ⟨op, a⟩ (List.mem_append_right _ List.mem_cons_self)
    rw [ih fun e he => hstands e (List.mem_append_left _ he), settle_read hread, hanswer]

/-! ## Replies that tell of the write -/

/-- However the operations are answered, as far as `expects` says they can be, the reply tells
whether a write took. -/
def Reports (ok : ρ → Bool) (expects : Bool → (op : I.Op) → I.Answer op → Prop) :
    Bool → Program I ρ → Prop
  | wrote, done reply => ok reply = wrote
  | wrote, call op next =>
      ∀ a, expects wrote op a → Reports ok expects (wrote || I.took op a) (next a)

theorem ReadsOnly.reports_bind {ok : ρ' → Bool}
    {expects : Bool → (op : I.Op) → I.Answer op → Prop} (h : p.ReadsOnly)
    (hf : ∀ reply, (f reply).Reports ok expects false) : (p.bind f).Reports ok expects false := by
  induction p with
  | done reply => exact hf reply
  | call op next ih =>
    intro a _
    rw [took_read h.1 a]
    exact ih a (h.2 a)

end Program

/-! ## Turns -/

/-- One operation, by whom, and its answer. -/
structure Event {σ : Type} (I : Interface σ) where
  caller : Nat
  op : I.Op
  answer : I.Answer op

/-- The store and what is left of every program. -/
structure Turns {σ : Type} (I : Interface σ) (ρ : Type) where
  store : σ
  calls : List (Program I ρ)

namespace Turns

open Program

variable {σ ρ : Type} {I : Interface σ}

/-- One program makes its next operation. -/
def turn (s : Turns I ρ) (i : Nat) : Option (Turns I ρ × List (Event I)) :=
  match s.calls[i]? with
  | some (.call op next) =>
      some (⟨(I.perform op s.store).2, s.calls.set i (next (I.perform op s.store).1)⟩,
        [⟨i, op, (I.perform op s.store).1⟩])
  | _ => none

variable {s s' : Turns I ρ} {i : Nat} {events log : List (Event I)}

theorem turn_cases (h : turn s i = some (s', events)) :
    ∃ op next, s.calls[i]? = some (.call op next) ∧
      s'.store = (I.perform op s.store).2 ∧
      s'.calls = s.calls.set i (next (I.perform op s.store).1) ∧
      events = [⟨i, op, (I.perform op s.store).1⟩] := by
  rw [turn] at h
  split at h
  · next op next hcall =>
      cases h
      exact ⟨op, next, hcall, rfl, rfl, rfl⟩
  · cases h

variable {j : Nat}

/-- What a turn makes of the programs: one goes on with its answer, the others stay. -/
theorem calls_turn {op : I.Op} {next : I.Answer op → Program I ρ} {p : Program I ρ}
    (hcall : s.calls[i]? = some (.call op next))
    (hcalls : s'.calls = s.calls.set i (next (I.perform op s.store).1))
    (hj : s'.calls[j]? = some p) :
    (j = i ∧ p = next (I.perform op s.store).1) ∨ (j ≠ i ∧ s.calls[j]? = some p) := by
  obtain ⟨hlt, _⟩ := List.getElem?_eq_some_iff.mp hcall
  rw [hcalls] at hj
  by_cases hji : j = i
  · subst hji
    rw [List.getElem?_set_self hlt] at hj
    exact .inl ⟨rfl, (Option.some.inj hj).symm⟩
  · rw [List.getElem?_set_ne (Ne.symm hji)] at hj
    exact .inr ⟨hji, hj⟩

/-- The operations one program made, with their answers. -/
def told (log : List (Event I)) (i : Nat) : List ((op : I.Op) × I.Answer op) :=
  (log.filter fun e => e.caller = i).map fun e => ⟨e.op, e.answer⟩

theorem told_append_self (log : List (Event I)) (i : Nat) (op : I.Op) (a : I.Answer op) :
    told (log ++ [⟨i, op, a⟩]) i = told log i ++ [⟨op, a⟩] := by
  simp [told, List.filter_append]

theorem told_append_other (log : List (Event I)) (h : j ≠ i) (op : I.Op)
    (a : I.Answer op) : told (log ++ [⟨j, op, a⟩]) i = told log i := by
  simp [told, List.filter_append, h]

/-- What was done since a program made its last operation. -/
def since (log : List (Event I)) (i : Nat) : List (Event I) :=
  (log.reverse.takeWhile fun e => e.caller ≠ i).reverse

theorem since_append_other (log : List (Event I)) (h : j ≠ i) (op : I.Op)
    (a : I.Answer op) : since (log ++ [⟨j, op, a⟩]) i = since log i ++ [⟨j, op, a⟩] := by
  simp [since, h]

variable {q : Program I ρ}

/-- What the programs have been told is in the log. -/
theorem trace_of_history {programs : List (Program I ρ)} {store : σ}
    {allowed : List (Event I) → Turns I ρ → Nat → Prop} {inputs : List Nat}
    (h : History turn allowed ⟨store, programs⟩ inputs log s)
    (hq : s.calls[i]? = some q) : ∃ p, programs[i]? = some p ∧ Trace p (told log i) q := by
  induction h generalizing i q with
  | nil => exact ⟨q, hq, .nil _⟩
  | @snoc _ log s j s' events hbefore ok taken ih =>
    obtain ⟨op, next, hcall, _, hcalls, rfl⟩ := turn_cases taken
    rcases calls_turn hcall hcalls hq with ⟨rfl, rfl⟩ | ⟨hne, hold⟩
    · obtain ⟨p, hp, htrace⟩ := ih hcall
      rw [told_append_self]
      exact ⟨p, hp, htrace.snoc _⟩
    · obtain ⟨p, hp, htrace⟩ := ih hold
      rw [told_append_other log hne.symm]
      exact ⟨p, hp, htrace⟩

/-- Turns neither add programs nor take any away, and only programs make operations. -/
theorem callers_of_history {programs : List (Program I ρ)} {store : σ}
    {allowed : List (Event I) → Turns I ρ → Nat → Prop} {inputs : List Nat}
    (h : History turn allowed ⟨store, programs⟩ inputs log s) :
    s.calls.length = programs.length ∧ ∀ e ∈ log, e.caller < programs.length := by
  induction h with
  | nil => exact ⟨rfl, fun e he => by cases he⟩
  | @snoc _ log s j s' events hbefore ok taken ih =>
    obtain ⟨op, next, hcall, _, hcalls, rfl⟩ := turn_cases taken
    obtain ⟨hlt, _⟩ := List.getElem?_eq_some_iff.mp hcall
    refine ⟨by rw [hcalls, List.length_set]; exact ih.1, fun e he => ?_⟩
    rcases List.mem_append.mp he with he | he
    · exact ih.2 e he
    · rw [List.mem_singleton.mp he, ← ih.1]
      exact hlt

/-! ## Up-to-date writes -/

/-- Asked again of the store as it is, the reads of a program lead it to the write it is about to make,
and to what it does after that. -/
def UpToDate (programs : List (Program I ρ)) (s : Turns I ρ) (i : Nat) : Prop :=
  ∀ p q op, programs[i]? = some p → s.calls[i]? = some q → q.nextOp = some op →
    I.writes op = true → p.settle s.store = q

/-- Who wrote, in the order of the writes that took. -/
def writers (log : List (Event I)) : List Nat :=
  (log.filter fun e => I.took e.op e.answer).map Event.caller

theorem writers_append (log more : List (Event I)) :
    writers (log ++ more) = writers log ++ writers more := by
  rw [writers, List.filter_append, List.map_append]
  rfl

theorem writers_single (i : Nat) (op : I.Op) (a : I.Answer op) :
    writers [(⟨i, op, a⟩ : Event I)] = if I.took op a then [i] else [] := by
  rw [writers, List.filter_cons]
  split <;> rfl

/-- One program after another, each of them alone. -/
def oneByOne (programs : List (Program I ρ)) (order : List Nat) (s : σ) : σ :=
  order.foldl (fun t i => (programs[i]?.map fun p => (p.alone t).2).getD t) s

theorem oneByOne_append (programs : List (Program I ρ)) (first second : List Nat) (s : σ) :
    oneByOne programs (first ++ second) s = oneByOne programs second (oneByOne programs first s) :=
  List.foldl_append

variable {programs : List (Program I ρ)} {store : σ} {inputs : List Nat}
  {allowed : List (Event I) → Turns I ρ → Nat → Prop}

/-- Turns whose writes are up to date leave what the writers leave one by one. -/
theorem store_eq_oneByOne (honce : ∀ p ∈ programs, p.WritesOnce)
    (hallowed : ∀ log s i, allowed log s i → UpToDate programs s i)
    (h : History turn allowed ⟨store, programs⟩ inputs log s) :
    s.store = oneByOne programs (writers log) store := by
  induction h with
  | nil => rfl
  | @snoc _ log s i s' events hbefore ok taken ih =>
    obtain ⟨op, next, hcall, hstore, _, rfl⟩ := turn_cases taken
    rw [writers_append, writers_single, hstore]
    cases htook : I.took op (I.perform op s.store).1 with
    | false =>
      rw [I.kept op s.store htook, if_neg Bool.false_ne_true, List.append_nil]
      exact ih
    | true =>
      obtain ⟨p, hp, _⟩ := trace_of_history hbefore hcall
      have hwrites : I.writes op = true := I.writes_of_took op _ htook
      have hsettled : (p.settle s.store).nextOp = some op := by
        rw [hallowed log s i ok p _ op hp hcall rfl hwrites]
        rfl
      have halone : (p.alone s.store).2 = (I.perform op s.store).2 :=
        (honce p (List.mem_of_getElem? hp)).alone_eq hsettled hwrites
      rw [if_pos rfl, oneByOne_append, ← ih]
      simp [oneByOne, hp, halone]

/-- What is left of a program that writes once writes once, and after its write it only reads. -/
theorem rest_of_history (honce : ∀ p ∈ programs, p.WritesOnce)
    (h : History turn allowed ⟨store, programs⟩ inputs log s)
    (hq : s.calls[i]? = some q) : q.WritesOnce ∧ (i ∈ writers log → q.ReadsOnly) := by
  induction h generalizing i q with
  | nil => exact ⟨honce q (List.mem_of_getElem? hq), fun hmem => absurd hmem (by simp [writers])⟩
  | @snoc _ log s j s' events hbefore ok taken ih =>
    obtain ⟨op, next, hcall, _, hcalls, rfl⟩ := turn_cases taken
    rw [writers_append, writers_single, List.mem_append]
    rcases calls_turn hcall hcalls hq with ⟨rfl, rfl⟩ | ⟨hne, hold⟩
    · obtain ⟨hrest, hread⟩ := ih hcall
      rw [WritesOnce] at hrest
      split at hrest
      · exact ⟨(hrest _).writesOnce, fun _ => hrest _⟩
      · next hnot =>
          refine ⟨hrest _, fun hmem => ?_⟩
          rcases hmem with hmem | hmem
          · exact (hread hmem).2 _
          · split at hmem
            · next htook => exact absurd (I.writes_of_took op _ htook) hnot
            · cases hmem
    · refine ⟨(ih hold).1, fun hmem => (ih hold).2 ?_⟩
      rcases hmem with hmem | hmem
      · exact hmem
      · split at hmem
        · exact absurd (List.mem_singleton.mp hmem) hne
        · cases hmem

/-- Nobody writes twice. -/
theorem nodup_writers (honce : ∀ p ∈ programs, p.WritesOnce)
    (h : History turn allowed ⟨store, programs⟩ inputs log s) : (writers log).Nodup := by
  induction h with
  | nil => exact List.nodup_nil
  | @snoc _ log s i s' events hbefore ok taken ih =>
    obtain ⟨op, next, hcall, _, _, rfl⟩ := turn_cases taken
    rw [writers_append, writers_single]
    split
    · next htook =>
        refine List.nodup_append.mpr ⟨ih, by simp, ?_⟩
        intro a ha b hb hab
        rw [List.mem_singleton.mp hb] at hab
        subst hab
        -- a program that wrote only reads, and this one is about to write
        have hread := ((rest_of_history honce hbefore hcall).2 ha).1
        rw [I.writes_of_took op _ htook] at hread
        cases hread
    · rwa [List.append_nil]

/-- In turns that answer as expected, a program that is done reports whether it wrote. -/
theorem reports_of_history {ok : ρ → Bool} {expects : Bool → (op : I.Op) → I.Answer op → Prop}
    (hreports : ∀ p ∈ programs, p.Reports ok expects false)
    (hexpects : ∀ {inputs log s i op next}, History turn allowed ⟨store, programs⟩ inputs log s →
      allowed log s i → s.calls[i]? = some (.call op next) →
      expects (decide (i ∈ writers log)) op (I.perform op s.store).1)
    (h : History turn allowed ⟨store, programs⟩ inputs log s)
    (hq : s.calls[i]? = some q) : q.Reports ok expects (decide (i ∈ writers log)) := by
  induction h generalizing i q with
  | nil =>
    have hnone : decide (i ∈ writers ([] : List (Event I))) = false := by simp [writers]
    rw [hnone]
    exact hreports q (List.mem_of_getElem? hq)
  | @snoc _ log s j s' events hbefore hok taken ih =>
    obtain ⟨op, next, hcall, _, hcalls, rfl⟩ := turn_cases taken
    rw [writers_append, writers_single]
    rcases calls_turn hcall hcalls hq with ⟨rfl, rfl⟩ | ⟨hne, hold⟩
    · have hnow := ih hcall _ (hexpects hbefore hok hcall)
      have hwrote : decide (i ∈ writers log ++
          if I.took op (I.perform op s.store).1 then [i] else []) =
          (decide (i ∈ writers log) || I.took op (I.perform op s.store).1) := by
        cases I.took op (I.perform op s.store).1 <;> simp
      rwa [hwrote]
    · have hwrote : decide (i ∈ writers log ++
          if I.took op (I.perform op s.store).1 then [j] else []) =
          decide (i ∈ writers log) := by
        cases I.took op (I.perform op s.store).1 <;> simp [hne]
      rw [hwrote]
      exact ih hold

end Turns

end RustyPhoton.Lib
