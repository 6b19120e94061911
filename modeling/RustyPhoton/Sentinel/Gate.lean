import RustyPhoton.Lib.Transition
import RustyPhoton.Sentinel.Restart

/-!
# One restart at a time

The gate keeps two waiting restarts of a service apart. It does not see a command nobody waits for
any more: that is the only way for two commands of one service to run at a time.
-/

namespace RustyPhoton.Sentinel

open Lib (History Justified)

namespace Restarts

/-! ## The slot -/

variable {s s' : Restarts} {log : List RestartEvent}

/-- A command that was started has ended, has been abandoned, or is being waited for by the only
one who holds the slot of its service. -/
structure Guarded (log : List RestartEvent) (s : Restarts) : Prop where
  fresh : ∀ w, s.nextWaiter ≤ w → s.waiters w = none
  slot : ∀ w x, s.waiters w = some x → x.stage.holdsSlot = true → s.inFlight x.name = true
  alone : ∀ w w' x x', s.waiters w = some x → s.waiters w' = some x' →
    x.stage.holdsSlot = true → x'.stage.holdsSlot = true → x.name = x'.name → w = w'
  spawned : ∀ w x command, s.waiters w = some x → x.stage = .running command →
    s.commands command ≠ none
  result : ∀ command success, s.commands command = some (some success) → .ended command ∈ log
  attended : ∀ name command, .started name command ∈ log → .ended command ∈ log ∨
    .abandoned command ∈ log ∨
      ∃ w x, s.waiters w = some x ∧ x.name = name ∧ x.stage = .running command

theorem guarded_new : Guarded [] new where
  fresh := fun _ _ => rfl
  slot := nofun
  alone := nofun
  spawned := nofun
  result := nofun
  attended := nofun

variable {t : Restarts}

/-- The tasks of the supervisors are no matter of the gate. -/
theorem Guarded.same (h : Guarded log s) (hwaiters : t.waiters = s.waiters)
    (hnext : t.nextWaiter = s.nextWaiter) (hflight : t.inFlight = s.inFlight)
    (hcommands : t.commands = s.commands) : Guarded log t where
  fresh := by
    rw [hwaiters, hnext]
    exact h.fresh
  slot := by
    rw [hwaiters, hflight]
    exact h.slot
  alone := by
    rw [hwaiters]
    exact h.alone
  spawned := by
    rw [hwaiters, hcommands]
    exact h.spawned
  result := by
    rw [hcommands]
    exact h.result
  attended := by
    rw [hwaiters]
    exact h.attended

variable {waiter : Nat} {x : RestartWaiter}

theorem Guarded.lt (h : Guarded log s)
    (hwaiter : s.waiters waiter = some x) : waiter < s.nextWaiter := by
  by_contra hge
  cases (h.fresh waiter (by omega)).symm.trans hwaiter

variable {events : List RestartEvent}

/-- One restart moves, and takes the slot, keeps it or gives it back. -/
theorem Guarded.move (h : Guarded log s) {value : Option RestartWaiter}
    (hwaiters : ∀ w, t.waiters w = if w = waiter then value else s.waiters w)
    (hnext : s.nextWaiter ≤ t.nextWaiter) (hlt : waiter < t.nextWaiter)
    (hslot : ∀ x, value = some x → x.stage.holdsSlot = true → t.inFlight x.name = true)
    (hothers : ∀ w x, w ≠ waiter → s.waiters w = some x → x.stage.holdsSlot = true →
      t.inFlight x.name = true)
    (halone : ∀ x, value = some x → x.stage.holdsSlot = true → ∀ w x', w ≠ waiter →
      s.waiters w = some x' → x'.stage.holdsSlot = true → x.name ≠ x'.name)
    (hspawned : ∀ x command, value = some x → x.stage = .running command →
      t.commands command ≠ none)
    (hcommands : ∀ command, t.commands command = none → s.commands command = none)
    (hresult : ∀ command success, t.commands command = some (some success) →
      .ended command ∈ log ++ events)
    (hattended : ∀ name command, .started name command ∈ events ∨
      (∃ x, s.waiters waiter = some x ∧ x.name = name ∧ x.stage = .running command) →
      .ended command ∈ log ++ events ∨ .abandoned command ∈ log ++ events ∨
        ∃ x, value = some x ∧ x.name = name ∧ x.stage = .running command) :
    Guarded (log ++ events) t := by
  have hself : t.waiters waiter = value := by rw [hwaiters, if_pos rfl]
  have hother : ∀ w, w ≠ waiter → t.waiters w = s.waiters w := by
    intro w hw
    rw [hwaiters, if_neg hw]
  have hstays : ∀ name command, .ended command ∈ log ++ events ∨
      .abandoned command ∈ log ++ events ∨
        (∃ x, value = some x ∧ x.name = name ∧ x.stage = .running command) →
      .ended command ∈ log ++ events ∨ .abandoned command ∈ log ++ events ∨
        ∃ w x, t.waiters w = some x ∧ x.name = name ∧ x.stage = .running command := by
    intro name command hc
    obtain hended | habandoned | ⟨x, hx, hrunning⟩ := hc
    · exact .inl hended
    · exact .inr (.inl habandoned)
    · exact .inr (.inr ⟨waiter, x, hself.trans hx, hrunning⟩)
  refine ⟨?_, ?_, ?_, ?_, hresult, ?_⟩
  · intro w hw
    rw [hother w (by omega)]
    exact h.fresh w (by omega)
  · intro w x hx hholds
    by_cases heq : w = waiter
    · rw [heq, hself] at hx
      exact hslot x hx hholds
    · rw [hother w heq] at hx
      exact hothers w x heq hx hholds
  · intro w w' x x' hx hx' hholds hholds' hname
    by_cases heq : w = waiter
    · by_cases heq' : w' = waiter
      · rw [heq, heq']
      · rw [heq, hself] at hx
        rw [hother w' heq'] at hx'
        exact (halone x hx hholds w' x' heq' hx' hholds' hname).elim
    · rw [hother w heq] at hx
      by_cases heq' : w' = waiter
      · rw [heq', hself] at hx'
        exact (halone x' hx' hholds' w x heq hx hholds hname.symm).elim
      · rw [hother w' heq'] at hx'
        exact h.alone w w' x x' hx hx' hholds hholds' hname
  · intro w x command hx hrunning
    by_cases heq : w = waiter
    · rw [heq, hself] at hx
      exact hspawned x command hx hrunning
    · rw [hother w heq] at hx
      intro hnone
      exact h.spawned w x command hx hrunning (hcommands command hnone)
  · intro name command hmem
    rcases List.mem_append.mp hmem with hlog | hevents
    · obtain hended | habandoned | ⟨w, x, hx, hname, hrunning⟩ := h.attended name command hlog
      · exact .inl (List.mem_append_left _ hended)
      · exact .inr (.inl (List.mem_append_left _ habandoned))
      · by_cases heq : w = waiter
        · rw [heq] at hx
          exact hstays name command (hattended name command (.inr ⟨x, hx, hname, hrunning⟩))
        · exact .inr (.inr ⟨w, x, (hother w heq).trans hx, hname, hrunning⟩)
    · exact hstays name command (hattended name command (.inl hevents))

theorem Guarded.enter (h : Guarded log s) (caller : RestartCaller) (name : String) :
    Guarded (log ++ []) (s.enter caller name) := by
  refine h.move (fun _ => rfl) (Nat.le_succ _) (Nat.lt_succ_self _) ?_ ?_ ?_ ?_ ?_ ?_ ?_
  · intro x hx hholds
    cases hx
    cases hholds
  · exact fun w x _ => h.slot w x
  · intro x hx hholds
    cases hx
    cases hholds
  · intro x command hx hrunning
    cases hx
    cases hrunning
  · exact fun command => id
  · intro command success hresult
    exact List.mem_append_left _ (h.result command success hresult)
  · intro n command hc
    obtain hnone | ⟨x, hx, -⟩ := hc
    · cases hnone
    · cases (h.fresh s.nextWaiter (Nat.le_refl _)).symm.trans hx

/-- A restart that does not hold the slot is turned away. -/
theorem Guarded.turnAway (h : Guarded log s)
    (hwaiter : s.waiters waiter = some x) (hstage : x.stage = .looking) :
    Guarded (log ++ []) (s.setWaiter waiter none) := by
  refine h.move (fun _ => rfl) (Nat.le_refl _) (h.lt hwaiter) nofun ?_ nofun nofun ?_ ?_ ?_
  · exact fun w x _ => h.slot w x
  · exact fun command => id
  · intro command success hresult
    exact List.mem_append_left _ (h.result command success hresult)
  · intro n command hc
    obtain hnone | ⟨y, hy, -, hrunning⟩ := hc
    · cases hnone
    · cases hwaiter.symm.trans hy
      cases hstage.symm.trans hrunning

/-- The slot is free: no one else holds it. -/
theorem Guarded.start (h : Guarded log s)
    (hwaiter : s.waiters waiter = some x) (hstage : x.stage = .looking)
    (hfree : s.inFlight x.name = false) :
    Guarded (log ++ [.started x.name s.nextCommand])
      ((({ s with nextCommand := s.nextCommand + 1 }.acquire x.name).setCommand s.nextCommand
        (some none)).setWaiter waiter (some { x with stage := .running s.nextCommand })) := by
  refine h.move (fun _ => rfl) (Nat.le_refl _) (h.lt hwaiter) ?_ ?_ ?_ ?_ ?_ ?_ ?_
  · intro y hy _
    cases hy
    show (decide (x.name = x.name) || s.inFlight x.name) = true
    rw [decide_eq_true rfl, Bool.true_or]
  · intro w y _ hy hholds
    show (decide (y.name = x.name) || s.inFlight y.name) = true
    rw [h.slot w y hy hholds, Bool.or_true]
  · intro y hy _ w z _ hz hholds hname
    cases hy
    have hheld := h.slot w z hz hholds
    rw [← hname] at hheld
    cases hfree.symm.trans hheld
  · intro y command hy hrunning
    cases hy
    cases hrunning
    show (if s.nextCommand = s.nextCommand then some none else _) ≠ none
    rw [if_pos rfl]
    nofun
  · intro command hnone
    have hif : (if command = s.nextCommand then some none else s.commands command) = none := hnone
    split at hif
    · cases hif
    · exact hif
  · intro command success hsome
    have hif : (if command = s.nextCommand then some none else s.commands command) =
      some (some success) := hsome
    split at hif
    · cases hif
    · exact List.mem_append_left _ (h.result command success hif)
  · intro name command hc
    obtain hstarted | ⟨y, hy, -, hrunning⟩ := hc
    · cases List.mem_singleton.mp hstarted
      exact .inr (.inr ⟨_, rfl, rfl, rfl⟩)
    · cases hwaiter.symm.trans hy
      cases hstage.symm.trans hrunning

variable {command : Nat} {success : Bool}

/-- A restart whose command has ended goes on to the recovery check. -/
theorem Guarded.recover (h : Guarded log s)
    (hwaiter : s.waiters waiter = some x) (hstage : x.stage = .running command)
    (hended : s.commands command = some (some success)) :
    Guarded (log ++ []) (s.setWaiter waiter (some { x with stage := .recovering })) := by
  have hholds : x.stage.holdsSlot = true := by rw [hstage]; rfl
  refine h.move (fun _ => rfl) (Nat.le_refl _) (h.lt hwaiter) ?_ ?_ ?_ ?_ ?_ ?_ ?_
  · intro y hy _
    cases hy
    exact h.slot waiter x hwaiter hholds
  · exact fun w y _ => h.slot w y
  · intro y hy _ w z hne hz hz' hname
    cases hy
    exact hne (h.alone waiter w x z hwaiter hz hholds hz' hname).symm
  · intro y c hy hrunning
    cases hy
    cases hrunning
  · exact fun c => id
  · intro c result hresult
    exact List.mem_append_left _ (h.result c result hresult)
  · intro n c hc
    obtain hnone | ⟨y, hy, -, hrunning⟩ := hc
    · cases hnone
    · cases hwaiter.symm.trans hy
      cases hstage.symm.trans hrunning
      exact .inl (List.mem_append_left _ (h.result command success hended))

/-- A restart ends; if its command still runs, that is said. -/
theorem Guarded.finish (h : Guarded log s) (hwaiter : s.waiters waiter = some x) :
    Guarded (log ++ s.abandons x) (s.finish waiter x) := by
  have hleft : ∀ command, x.stage = .running command →
      .ended command ∈ log ∨ .abandoned command ∈ s.abandons x := by
    intro command hstage
    cases hcommand : s.commands command with
    | none => exact (h.spawned waiter x command hwaiter hstage hcommand).elim
    | some result =>
      cases result with
      | none =>
        refine .inr ?_
        unfold abandons
        rw [hstage]
        dsimp only
        rw [if_pos hcommand]
        exact List.mem_cons_self
      | some success => exact .inl (h.result command success hcommand)
  have honly : ∀ name command, .started name command ∉ s.abandons x := by
    intro name command
    unfold abandons
    split
    · split
      · simp
      · simp
    · simp
  have hcommands : (s.finish waiter x).commands = s.commands := by
    unfold Restarts.finish
    split
    · rfl
    · rfl
  have hnext : (s.finish waiter x).nextWaiter = s.nextWaiter := by
    unfold Restarts.finish
    split
    · rfl
    · rfl
  have hwaiters : ∀ w, (s.finish waiter x).waiters w = if w = waiter then none else s.waiters w := by
    intro w
    unfold Restarts.finish
    split
    · rfl
    · rfl
  refine h.move hwaiters (Nat.le_of_eq hnext.symm) (hnext ▸ h.lt hwaiter) nofun ?_ nofun nofun
    ?_ ?_ ?_
  · intro w y hne hy hholds
    have hslot := h.slot w y hy hholds
    unfold Restarts.finish
    split
    · next hx =>
        show (decide (y.name ≠ x.name) && s.inFlight y.name) = true
        have hother : y.name ≠ x.name := by
          intro hname
          exact hne (h.alone w waiter y x hy hwaiter hholds hx hname)
        rw [hslot, decide_eq_true hother]
        rfl
    · exact hslot
  · rw [hcommands]
    exact fun command => id
  · rw [hcommands]
    intro command success hresult
    exact List.mem_append_left _ (h.result command success hresult)
  · intro name command hc
    obtain hstarted | ⟨y, hy, -, hrunning⟩ := hc
    · exact (honly name command hstarted).elim
    · cases hwaiter.symm.trans hy
      rcases hleft command hrunning with hended | habandoned
      · exact .inl (List.mem_append_left _ hended)
      · exact .inr (.inl (List.mem_append_right _ habandoned))

/-! ## Every run -/

/-- A command starts when every earlier one of its service has ended. -/
def Alone (before : List RestartEvent) : RestartEvent → Prop
  | .started name _ => ∀ command, .started name command ∈ before → .ended command ∈ before
  | _ => True

/-- A command starts when every earlier one of its service that was abandoned has ended. -/
def Unabandoned (before : List RestartEvent) : RestartEvent → Prop
  | .started name _ => ∀ command, .started name command ∈ before →
      .abandoned command ∈ before → .ended command ∈ before
  | _ => True

/-- A command starts when every earlier one of its service has ended or been abandoned. -/
def Excluded (before : List RestartEvent) : RestartEvent → Prop
  | .started name _ => ∀ command, .started name command ∈ before →
      .ended command ∈ before ∨ .abandoned command ∈ before
  | _ => True

/-- What the gate keeps in every history. -/
structure Kept (log : List RestartEvent) (s : Restarts) : Prop where
  guarded : Guarded log s
  excluded : Justified Excluded log

theorem Kept.quiet (h : Kept log s) (hguarded : Guarded (log ++ []) t) :
    Kept (log ++ []) t where
  guarded := hguarded
  excluded := by
    rw [List.append_nil]
    exact h.excluded

theorem Kept.finish (h : Kept log s) (hwaiter : s.waiters waiter = some x) :
    Kept (log ++ s.abandons x) (s.finish waiter x) where
  guarded := h.guarded.finish hwaiter
  excluded := by
    refine h.excluded.append ?_
    unfold abandons
    intro entry hentry before
    split at hentry
    · split at hentry
      · rw [List.mem_singleton.mp hentry]
        trivial
      · cases hentry
    · cases hentry

theorem abandons_of_ended (h : ∀ command, x.stage = .running command →
    s.commands command ≠ some none) : s.abandons x = [] := by
  unfold abandons
  split
  · next command hstage => exact if_neg (h command hstage)
  · rfl

theorem Kept.finishQuiet (h : Kept log s)
    (hwaiter : s.waiters waiter = some x) (hended : ∀ command, x.stage = .running command →
      s.commands command ≠ some none) : Kept (log ++ []) (s.finish waiter x) := by
  have hfinish := h.finish hwaiter
  rwa [abandons_of_ended hended] at hfinish

theorem Kept.proceed (h : Kept log s) {spawned : Bool}
    (hwaiter : s.waiters waiter = some x) (hstage : x.stage = .looking) :
    Kept (log ++ (s.proceed waiter x spawned).2) (s.proceed waiter x spawned).1 := by
  have haway := h.quiet (h.guarded.turnAway hwaiter hstage)
  unfold Restarts.proceed
  split
  · exact haway
  · split
    · exact haway
    · next hfree =>
        split
        · refine ⟨h.guarded.start hwaiter hstage (Bool.eq_false_iff.mpr hfree), ?_⟩
          refine h.excluded.snoc ?_
          intro command hstarted
          obtain hended | habandoned | ⟨w, y, hy, hname, hrunning⟩ :=
            h.guarded.attended x.name command hstarted
          · exact .inl hended
          · exact .inr habandoned
          · -- someone still waits for it, and holds the slot
            have hheld := h.guarded.slot w y hy (by rw [hrunning]; rfl)
            rw [hname] at hheld
            exact (hfree hheld).elim
        · exact haway

/-- A command ends whether or not anyone waits for it. -/
theorem Kept.exits (h : Kept log s) :
    Kept (log ++ [.ended command]) (s.setCommand command (some (some success))) where
  guarded := {
    fresh := h.guarded.fresh
    slot := h.guarded.slot
    alone := h.guarded.alone
    spawned := by
      intro w x c hx hrunning hnone
      have hif : (if c = command then some (some success) else s.commands c) = none := hnone
      split at hif
      · cases hif
      · exact h.guarded.spawned w x c hx hrunning hif
    result := by
      intro c result hsome
      have hif : (if c = command then some (some success) else s.commands c) =
        some (some result) := hsome
      split at hif
      · next heq =>
          rw [heq]
          exact List.mem_append_right _ List.mem_cons_self
      · exact List.mem_append_left _ (h.guarded.result c result hif)
    attended := by
      intro name c hmem
      have hlog : .started name c ∈ log := by simpa using hmem
      obtain hended | habandoned | hwaits := h.guarded.attended name c hlog
      · exact .inl (List.mem_append_left _ hended)
      · exact .inr (.inl (List.mem_append_left _ habandoned))
      · exact .inr (.inr hwaits) }
  excluded := h.excluded.snoc trivial

/-- Same waiters, same commands, same gate. -/
structure SameGate (s t : Restarts) : Prop where
  waiters : t.waiters = s.waiters
  nextWaiter : t.nextWaiter = s.nextWaiter
  inFlight : t.inFlight = s.inFlight
  commands : t.commands = s.commands

theorem sameGate_foldl (names : List String) : SameGate s (names.foldl spawn s) := by
  induction names generalizing s with
  | nil => exact ⟨rfl, rfl, rfl, rfl⟩
  | cons name rest ih =>
    have hrest := ih (s := s.spawn name)
    exact ⟨hrest.waiters, hrest.nextWaiter, hrest.inFlight, hrest.commands⟩

theorem sameGate_discover (services : Services) : SameGate s (s.discover services) := by
  have hleft := sameGate_foldl (s := { s with registry := services }.reap services)
    (services.newlySupervised (services.kept s.tasks))
  exact ⟨hleft.waiters, hleft.nextWaiter, hleft.inFlight, hleft.commands⟩

theorem Kept.sameGate (h : Kept log s) (same : SameGate s t) : Kept log t where
  guarded := h.guarded.same same.waiters same.nextWaiter same.inFlight same.commands
  excluded := h.excluded

theorem Kept.step {i : RestartInput} (h : Kept log s)
    (taken : s.step i = some (s', events)) : Kept (log ++ events) s' := by
  unfold Restarts.step at taken
  cases i with
  | post name =>
    cases taken
    exact h.quiet (h.guarded.enter .rest name)
  | restartRung name =>
    cases taken
    exact h.quiet (h.guarded.enter .ladder name)
  | attemptRestart task =>
    dsimp only at taken
    split at taken
    · split at taken
      · cases taken
      · cases taken
        exact (h.quiet (h.guarded.enter (.supervisor task) _)).sameGate ⟨rfl, rfl, rfl, rfl⟩
    · cases taken
  | proceed waiter spawned =>
    dsimp only at taken
    split at taken
    · next x hwaiter =>
        split at taken
        · next hstage =>
            obtain ⟨rfl, rfl⟩ := Prod.mk.inj (Option.some.inj taken)
            exact h.proceed hwaiter hstage
        · cases taken
    · cases taken
  | exits command success =>
    dsimp only at taken
    split at taken
    · cases taken
      exact h.exits
    · cases taken
  | wake waiter =>
    dsimp only at taken
    split at taken
    · next x hwaiter =>
        split at taken
        · next command hstage =>
            split at taken
            · next hended =>
                cases taken
                exact h.quiet (h.guarded.recover hwaiter hstage hended)
            · next hended =>
                cases taken
                refine h.finishQuiet hwaiter ?_
                intro c hc
                cases hstage.symm.trans hc
                rw [hended]
                nofun
            · cases taken
        · cases taken
    · cases taken
  | recovered waiter =>
    dsimp only at taken
    split at taken
    · next x hwaiter =>
        split at taken
        · next hstage =>
            cases taken
            refine h.finishQuiet hwaiter ?_
            intro c hc
            cases hstage.symm.trans hc
        · cases taken
    · cases taken
  | drop waiter =>
    dsimp only at taken
    split at taken
    · next x hwaiter =>
        split at taken
        · cases taken
        · cases taken
          exact h.finish hwaiter
    · cases taken
  | discover services =>
    cases taken
    rw [List.append_nil]
    exact h.sameGate (sameGate_discover services)
  | cancelled task =>
    dsimp only at taken
    split at taken
    · next t ht =>
        split at taken
        · split at taken
          · next waiter x hattempt =>
              obtain ⟨w, hw, hmap⟩ := Option.bind_eq_some_iff.mp hattempt
              obtain ⟨y, hy, heq⟩ := Option.map_eq_some_iff.mp hmap
              cases heq
              cases taken
              exact (h.finish hy).sameGate ⟨rfl, rfl, rfl, rfl⟩
          · cases taken
            rw [List.append_nil]
            exact h.sameGate ⟨rfl, rfl, rfl, rfl⟩
        · cases taken
    · cases taken

/-- In every run no two platform commands of one service run at a time if and only if none is
started while an abandoned one of that service still runs. -/
theorem one_restart_iff {inputs : List RestartInput}
    (h : History step (fun _ _ _ => True) new inputs log s) :
    Justified Alone log ↔ Justified Unabandoned log := by
  have hkept : Kept log s :=
    h.invariant Kept ⟨guarded_new, .nil⟩ fun hinv _ taken => hinv.step taken
  constructor
  · intro halone before entry after hlog
    have hentry := halone before entry after hlog
    cases entry with
    | started name command => exact fun c hstarted _ => hentry c hstarted
    | ended command => trivial
    | abandoned command => trivial
  · intro hleft before entry after hlog
    have hentry := hleft before entry after hlog
    have hexcluded := hkept.excluded before entry after hlog
    cases entry with
    | started name command =>
      intro c hstarted
      rcases hexcluded c hstarted with hended | habandoned
      · exact hended
      · exact hentry c hstarted habandoned
    | ended command => trivial
    | abandoned command => trivial

end Restarts

namespace Evaluation

def mount (state : RunState) : Services :=
  ⟨[⟨"mount", "rusty-photon-mount", state, none⟩], List.nodup_singleton _⟩

/-- While the platform restarts the mount its unit is inactive: the discovery pass of that moment
reaps the supervisor that waits, and a client's request finds the slot free. -/
def reapedRestart : List RestartInput :=
  [.discover (mount .running), .attemptRestart 0, .proceed 0 true, .discover (mount .stopped),
    .cancelled 0, .post "mount", .proceed 1 true]

theorem two_commands_after_reap :
    ∃ log s, History Restarts.step (fun _ _ _ => True) Restarts.new reapedRestart log s ∧
      ¬ Justified Restarts.Alone log := by
  refine ⟨_, _, History.of_play rfl, ?_⟩
  intro hjustified
  have hstarted := hjustified [.started "mount" 0, .abandoned 0] _ _ rfl 0 List.mem_cons_self
  exact absurd hstarted (by decide)

/-- Nobody stops waiting: the second request is turned away. -/
def refusedRestart : List RestartInput :=
  [.discover (mount .running), .attemptRestart 0, .proceed 0 true, .post "mount", .proceed 1 true,
    .exits 0 true, .wake 0, .recovered 0, .restartRung "mount", .proceed 2 true]

theorem one_command_at_a_time :
    ∃ log s, History Restarts.step (fun _ _ _ => True) Restarts.new refusedRestart log s ∧
      (Justified Restarts.Alone log ↔ Justified Restarts.Unabandoned log) := by
  obtain ⟨log, s, h⟩ : ∃ log s, History Restarts.step (fun _ _ _ => True) Restarts.new
    refusedRestart log s := ⟨_, _, History.of_play rfl⟩
  exact ⟨log, s, h, Restarts.one_restart_iff h⟩

end Evaluation

end RustyPhoton.Sentinel
