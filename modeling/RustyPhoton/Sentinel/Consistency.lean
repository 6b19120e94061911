import RustyPhoton.Lib.Transition
import RustyPhoton.Sentinel.Rows

/-!
# What the dashboard shows

The rows are those of the last pass, a service that is not supervised is shown stood down, and the
lifetime counts are right, as long as no supervisor publishes after a pass stood it down and none
is spawned for a service that another one has restarted.
-/

namespace RustyPhoton.Sentinel

open Lib (History Justified u64Max saturatingSucc)

variable {rows : List ServiceHealthStatus} {services : Services}

/-! ## Counting restarts -/

variable {log : List DashboardEvent}

/-- The autonomous restarts of a service. -/
def restarts (log : List DashboardEvent) (name : String) : Nat :=
  log.countP fun
    | .restarted _ other => other = name
    | .shown _ _ => false

/-- Those that one supervisor asked for. -/
def ownRestarts (log : List DashboardEvent) (task : Nat) (name : String) : Nat :=
  log.countP fun event => event = .restarted task name

/-- A row is written with the number of restarts there were. -/
def Counted (before : List DashboardEvent) : DashboardEvent → Prop
  | .restarted _ _ => True
  | .shown name total => total = restarts before name

theorem restarts_append (log more : List DashboardEvent) (name : String) :
    restarts (log ++ more) name = restarts log name + restarts more name := List.countP_append

variable {name : String}

theorem restarts_eq_zero (h : ∀ task, .restarted task name ∉ log) :
    restarts log name = 0 := by
  refine List.countP_eq_zero.mpr ?_
  intro event hevent hcounts
  cases event with
  | restarted task other =>
    rw [of_decide_eq_true hcounts] at hevent
    exact h task hevent
  | shown other total => cases hcounts

variable {task : Nat}

/-- Where no other supervisor asked for one, a service's restarts are those of the one. -/
theorem restarts_eq_own (h : ∀ other, other ≠ task → .restarted other name ∉ log) :
    restarts log name = ownRestarts log task name := by
  refine List.countP_congr ?_
  intro event hevent
  cases event with
  | restarted other m =>
    constructor
    · intro hm
      have hm := of_decide_eq_true hm
      rw [hm] at hevent ⊢
      have hsame : other = task := by
        by_contra hne
        exact h other hne hevent
      rw [hsame]
      exact decide_eq_true rfl
    · intro hm
      cases of_decide_eq_true hm
      exact decide_eq_true rfl
  | shown m total =>
    constructor
    · intro hm
      cases hm
    · intro hm
      cases of_decide_eq_true hm

theorem shown_le (h : Justified Counted log) {total : Nat}
    (hshown : .shown name total ∈ log) : total ≤ restarts log name := by
  obtain ⟨before, after, rfl⟩ := List.append_of_mem hshown
  have hcounted : total = restarts before name := h before _ after rfl
  rw [hcounted, restarts_append]
  exact Nat.le_add_right _ _

theorem ownRestarts_snoc_other {other : Nat} {m : String} (h : ¬ (other = task ∧ m = name)) :
    ownRestarts (log ++ [.restarted other m]) task name = ownRestarts log task name := by
  unfold ownRestarts
  rw [List.countP_append, List.countP_singleton, if_neg, Nat.add_zero]
  intro heq
  cases of_decide_eq_true heq
  exact h ⟨rfl, rfl⟩

theorem ownRestarts_append_shown {more : List DashboardEvent}
    (h : ∀ event ∈ more, ∃ m total, event = .shown m total) :
    ownRestarts (log ++ more) task name = ownRestarts log task name := by
  unfold ownRestarts
  rw [List.countP_append]
  have hnone : more.countP (fun event => event = .restarted task name) = 0 := by
    refine List.countP_eq_zero.mpr ?_
    intro event hevent heq
    obtain ⟨m, total, rfl⟩ := h event hevent
    cases of_decide_eq_true heq
  rw [hnone, Nat.add_zero]

/-! ## The state and the log -/

namespace Dashboard

variable {s s' : Dashboard}

/-- The row a supervisor is about to write. -/
def writes : SupervisorStage → Option ServiceHealthStatus
  | .publishing row | .publishingDown row _ _ => some row
  | _ => none

/-- No supervisor publishes of a service that the last pass did not find supervised, unless the row
says nothing of an outage; a supervisor publishes and a pass makes a row only where no other
supervisor has restarted the service; and no lifetime count is at its bound. -/
def Undisturbed (log : List DashboardEvent) (s : Dashboard) : DashboardInput → Prop
  | .sync => ∀ services, s.pass = .enumerated services → ∀ name ∈ s.newRows services,
      ∀ task, .restarted task name ∉ log
  | .supervisor task .publish => ∀ sup row, s.supervisors task = some sup →
      writes sup.stage = some row →
        (∀ services, s.lastPass = some services → services.supervises sup.name = true ∨
          (services.containsKey sup.name = true ∧ row.Quiet)) ∧
        ∀ other, other ≠ task → .restarted other sup.name ∉ log
  | .supervisor task (.attempt .report) => ∀ sup, s.supervisors task = some sup →
      sup.counters.totalRestarts < u64Max
  | _ => True

/-- What the log says of one supervisor: its lifetime count, and that of the row it is about to
write, are its own restarts. -/
structure Own (log : List DashboardEvent) (task : Nat) (sup : HealthSupervisor) : Prop where
  total : sup.counters.totalRestarts = ownRestarts log task sup.name
  row : ∀ row, writes sup.stage = some row →
    row.name = sup.name ∧ row.totalRestarts = sup.counters.totalRestarts

structure Consistent (log : List DashboardEvent) (s : Dashboard) : Prop where
  sorted : (names s.rows).Pairwise (· < ·)
  shows' : ∀ services, s.lastPass = some services → Shows services s.rows
  counted : Justified Counted log
  shown : ∀ row ∈ s.rows, .shown row.name row.totalRestarts ∈ log ∧
    ∀ total, .shown row.name total ∈ log → total ≤ row.totalRestarts
  own : ∀ task sup, s.supervisors task = some sup → Own log task sup
  born : ∀ task sup, s.supervisors task = some sup → task < s.nextSupervisor
  asked : ∀ task name, .restarted task name ∈ log → task < s.nextSupervisor

theorem Consistent.nodup (h : Consistent log s) : (names s.rows).Nodup :=
  h.sorted.imp ne_of_lt

theorem consistent_new (policy : SupervisionPolicy) : Consistent [] (new policy) where
  sorted := List.Pairwise.nil
  shows' services h := by cases h
  counted := .nil
  shown row hrow := by cases hrow
  own task sup h := by cases h
  born task sup h := by cases h
  asked task name h := by cases h

/-- The rows and the log stay, and so do the counts of the supervisors. -/
theorem Consistent.supervise (h : Consistent log s) {t : Dashboard} (hrows : t.rows = s.rows)
    (hlast : t.lastPass = s.lastPass) (hnext : s.nextSupervisor ≤ t.nextSupervisor)
    (hsup : ∀ task sup, t.supervisors task = some sup →
      Own log task sup ∧ task < t.nextSupervisor) : Consistent log t where
  sorted := by
    rw [hrows]
    exact h.sorted
  shows' := by
    rw [hrows, hlast]
    exact h.shows'
  counted := h.counted
  shown := by
    rw [hrows]
    exact h.shown
  own task sup hsome := (hsup task sup hsome).1
  born task sup hsome := (hsup task sup hsome).2
  asked task name hmem := Nat.lt_of_lt_of_le (h.asked task name hmem) hnext

variable {task : Nat} {sup : HealthSupervisor}

/-- One supervisor moves. -/
theorem Consistent.setSupervisor (h : Consistent log s) {before : HealthSupervisor}
    (hsome : s.supervisors task = some before) (own : Own log task sup) :
    Consistent log (s.setSupervisor task sup) := by
  refine h.supervise rfl rfl (Nat.le_refl _) ?_
  intro other sup' hother
  have hif : (if other = task then some sup else s.supervisors other) = some sup' := hother
  split at hif
  · next heq =>
      cases hif
      rw [heq]
      exact ⟨own, h.born task before hsome⟩
  · exact ⟨h.own other sup' hif, h.born other sup' hif⟩

/-- A new supervisor has restarted nothing. -/
theorem Consistent.spawn (h : Consistent log s) (name : String) :
    Consistent log (s.spawn name) := by
  refine h.supervise rfl rfl (Nat.le_succ _) ?_
  intro task sup hsome
  have hif : (if task = s.nextSupervisor then some _ else s.supervisors task) = some sup := hsome
  split at hif
  · next heq =>
      cases hif
      rw [heq]
      refine ⟨⟨?_, nofun⟩, Nat.lt_succ_self _⟩
      show 0 = ownRestarts log s.nextSupervisor name
      refine (List.countP_eq_zero.mpr ?_).symm
      intro event hevent hsame
      rw [of_decide_eq_true hsame] at hevent
      exact absurd (h.asked _ _ hevent) (Nat.lt_irrefl _)
  · exact ⟨h.own task sup hif, Nat.lt_succ_of_lt (h.born task sup hif)⟩

theorem Consistent.spawnAll (h : Consistent log s) (names : List String) :
    Consistent log (names.foldl Dashboard.spawn s) := by
  induction names generalizing s with
  | nil => exact h
  | cons name rest ih => exact ih (h.spawn name)

theorem Consistent.reconcile (h : Consistent log s) (services : Services) :
    Consistent log (s.reconcile services) := by
  refine Consistent.spawnAll ?_ _
  refine h.supervise rfl rfl (Nat.le_refl _) ?_
  intro task sup hsome
  obtain ⟨before, hbefore, rfl⟩ := Option.map_eq_some_iff.mp hsome
  have hborn : task < s.nextSupervisor := h.born task before hbefore
  have hown := h.own task before hbefore
  split
  · exact ⟨⟨hown.total, hown.row⟩, hborn⟩
  · exact ⟨hown, hborn⟩

/-- Entries that show rows change no supervisor's count. -/
theorem Own.append_shown (h : Own log task sup)
    {more : List DashboardEvent} (hmore : ∀ event ∈ more, ∃ m total, event = .shown m total) :
    Own (log ++ more) task sup where
  total := by
    rw [ownRestarts_append_shown hmore]
    exact h.total
  row := h.row

/-- A pass makes rows of services that have not been restarted. -/
theorem Consistent.sync (h : Consistent log s) {services : Services}
    (ok : ∀ name ∈ s.newRows services, ∀ task, .restarted task name ∉ log) :
    Consistent (log ++ (s.newRows services).map fun name => .shown name 0) (s.sync services) := by
  have hmore : ∀ event ∈ (s.newRows services).map (DashboardEvent.shown · 0),
      ∃ m total, event = .shown m total := by
    intro event hevent
    obtain ⟨name, -, rfl⟩ := List.mem_map.mp hevent
    exact ⟨name, 0, rfl⟩
  refine ⟨sorted_sync h.nodup _, ?_, ?_, ?_, ?_, h.born, ?_⟩
  · intro found hfound
    cases hfound
    exact shows_sync h.nodup _
  · refine h.counted.extend ?_
    intro front entry back hsplit
    have hentry : entry ∈ (s.newRows services).map (DashboardEvent.shown · 0) := by
      rw [hsplit]
      exact List.mem_append_right _ List.mem_cons_self
    obtain ⟨name, hname, rfl⟩ := List.mem_map.mp hentry
    show 0 = restarts (log ++ front) name
    refine (restarts_eq_zero ?_).symm
    intro task hmem
    rcases List.mem_append.mp hmem with hlog | hfront
    · exact ok name hname task hlog
    · obtain ⟨m, total, heq⟩ := hmore (.restarted task name) (by
        rw [hsplit]
        exact List.mem_append_left _ hfront)
      cases heq
  · intro row hrow
    rcases total_sync h.nodup hrow with ⟨old, hold, hname, htotal⟩ | ⟨hzero, hnew, hfound⟩
    · obtain ⟨hshown, hmax⟩ := h.shown old hold
      rw [← hname, ← htotal]
      refine ⟨List.mem_append_left _ hshown, ?_⟩
      intro total hmem
      rcases List.mem_append.mp hmem with hlog | hevents
      · exact hmax total hlog
      · obtain ⟨name, -, heq⟩ := List.mem_map.mp hevents
        cases heq
        exact Nat.zero_le _
    · have hmade : row.name ∈ s.newRows services := by
        refine List.mem_filter.mpr ⟨mem_names_values.mpr hfound, ?_⟩
        rw [Bool.not_eq_true', Bool.eq_false_iff]
        exact fun hhas => hnew (hasRow_iff.mp hhas)
      rw [hzero]
      refine ⟨List.mem_append_right _ (List.mem_map.mpr ⟨_, hmade, rfl⟩), ?_⟩
      intro total hmem
      rcases List.mem_append.mp hmem with hlog | hevents
      · have hle := shown_le h.counted hlog
        rwa [restarts_eq_zero (ok _ hmade)] at hle
      · obtain ⟨name, -, heq⟩ := List.mem_map.mp hevents
        cases heq
        exact Nat.le_refl _
  · exact fun task sup hsome => (h.own task sup hsome).append_shown hmore
  · intro task name hmem
    rcases List.mem_append.mp hmem with hlog | hevents
    · exact h.asked task name hlog
    · obtain ⟨other, -, heq⟩ := List.mem_map.mp hevents
      cases heq

/-! ## A supervisor's step -/

/-- Nothing is written, and the counters stay. -/
theorem Own.stage (h : Own log task sup) {stage : SupervisorStage} (hwrites : writes stage = none) :
    Own log task { sup with stage := stage } where
  total := h.total
  row row hrow := by
    have hnone : writes stage = some row := hrow
    cases hwrites.symm.trans hnone

theorem Own.observed (h : Own log task sup)
    (snapshot : DiscoveredService) (observation : TickObservation) (probedAtMs nowMs : Nat) :
    Own log task (s.observed sup snapshot observation probedAtMs nowMs) := by
  unfold Dashboard.observed
  cases observation with
  | up | degraded message | down | unknown =>
    refine ⟨h.total, ?_⟩
    intro row hrow
    cases hrow
    exact ⟨rfl, rfl⟩

theorem Own.notified (h : Own log task sup)
    (snapshot : DiscoveredService) (probedAtMs nowMs : Nat) :
    Own log task { sup with
      stage := .publishing (sup.status snapshot .down none probedAtMs s.clock nowMs
        s.policy.pollInterval) } where
  total := h.total
  row row hrow := by
    cases hrow
    exact ⟨rfl, rfl⟩

variable {row : ServiceHealthStatus}

theorem published_cases {sup' : HealthSupervisor} (h : s.published sup = some (row, sup')) :
    writes sup.stage = some row ∧ ∃ stage, sup' = { sup with stage := stage } ∧
      writes stage = none := by
  unfold Dashboard.published at h
  split at h
  · next made hstage =>
      cases h
      rw [hstage]
      exact ⟨rfl, .sleeping, rfl, rfl⟩
  · next made snapshot probedAtMs hstage =>
      rw [hstage]
      split at h
      · cases h
        exact ⟨rfl, .restarting snapshot probedAtMs, rfl, rfl⟩
      · cases h
        exact ⟨rfl, .sleeping, rfl, rfl⟩
  · cases h

/-- A restart is reported: it is the supervisor's own. -/
theorem Consistent.report (h : Consistent log s)
    (hsome : s.supervisors task = some sup) (room : sup.counters.totalRestarts < u64Max)
    (snapshot : DiscoveredService) (probedAtMs : Nat) :
    Consistent (log ++ [.restarted task sup.name]) (s.setSupervisor task { sup with
      counters := sup.counters.restarted s.policy s.clock
      stage := .notifying snapshot probedAtMs }) := by
  refine ⟨h.sorted, h.shows', h.counted.snoc trivial, ?_, ?_, ?_, ?_⟩
  · intro row hrow
    obtain ⟨hshown, hmax⟩ := h.shown row hrow
    refine ⟨List.mem_append_left _ hshown, ?_⟩
    intro total hmem
    exact hmax total (by simpa using hmem)
  · intro other sup' hother
    have hif : (if other = task then some _ else s.supervisors other) = some sup' := hother
    split at hif
    · next heq =>
        cases hif
        rw [heq]
        refine ⟨?_, nofun⟩
        show saturatingSucc u64Max sup.counters.totalRestarts =
          ownRestarts (log ++ [.restarted task sup.name]) task sup.name
        rw [Lib.saturatingSucc_eq room, (h.own task sup hsome).total]
        unfold ownRestarts
        rw [List.countP_append, List.countP_singleton, if_pos (decide_eq_true rfl)]
    · next hne =>
        have hown := h.own other sup' hif
        refine ⟨?_, hown.row⟩
        rw [ownRestarts_snoc_other fun hsame => hne hsame.1.symm]
        exact hown.total
  · intro other sup' hother
    have hif : (if other = task then some _ else s.supervisors other) = some sup' := hother
    split at hif
    · next heq =>
        rw [heq]
        exact h.born task sup hsome
    · exact h.born other sup' hif
  · intro other name hmem
    rcases List.mem_append.mp hmem with hlog | hlast
    · exact h.asked other name hlog
    · cases List.mem_singleton.mp hlast
      exact h.born task sup hsome

/-- A row is written of a service whose restarts are the supervisor's own. -/
theorem Consistent.publish (h : Consistent log s) {sup' : HealthSupervisor}
    (hsome : s.supervisors task = some sup)
    (hpublished : s.published sup = some (row, sup'))
    (ok : Undisturbed log s (.supervisor task .publish)) :
    Consistent (log ++ [.shown row.name row.totalRestarts])
      ({ s with rows := setServiceHealth s.rows row }.setSupervisor task sup') := by
  obtain ⟨hwrites, stage, rfl, hafter⟩ := published_cases hpublished
  obtain ⟨hplace, hothers⟩ := ok sup row hsome hwrites
  have hown := h.own task sup hsome
  obtain ⟨hname, htotal⟩ := hown.row row hwrites
  have hcount : row.totalRestarts = restarts log row.name := by
    rw [htotal, hown.total, hname, restarts_eq_own hothers]
  have hmore : ∀ event ∈ [DashboardEvent.shown row.name row.totalRestarts],
      ∃ m total, event = .shown m total := by
    intro event hevent
    exact ⟨_, _, List.mem_singleton.mp hevent⟩
  refine ⟨sorted_setServiceHealth h.sorted, ?_, h.counted.snoc hcount, ?_, ?_, ?_, ?_⟩
  · intro services hlast
    refine (h.shows' services hlast).publish h.nodup ?_
    rw [hname]
    exact hplace services hlast
  · intro other hother
    rcases mem_setServiceHealth h.nodup hother with ⟨hold, hne⟩ | rfl
    · obtain ⟨hshown, hmax⟩ := h.shown other hold
      refine ⟨List.mem_append_left _ hshown, ?_⟩
      intro total hmem
      rcases List.mem_append.mp hmem with hlog | hlast
      · exact hmax total hlog
      · exact (hne (DashboardEvent.shown.inj (List.mem_singleton.mp hlast)).1).elim
    · refine ⟨List.mem_append_right _ List.mem_cons_self, ?_⟩
      intro total hmem
      rcases List.mem_append.mp hmem with hlog | hlast
      · rw [hcount]
        exact shown_le h.counted hlog
      · exact Nat.le_of_eq (DashboardEvent.shown.inj (List.mem_singleton.mp hlast)).2
  · intro other sup'' hother
    have hif : (if other = task then some _ else s.supervisors other) = some sup'' := hother
    split at hif
    · next heq =>
        cases hif
        rw [heq]
        exact (hown.stage hafter).append_shown hmore
    · exact (h.own other sup'' hif).append_shown hmore
  · intro other sup'' hother
    have hif : (if other = task then some _ else s.supervisors other) = some sup'' := hother
    split at hif
    · next heq =>
        rw [heq]
        exact h.born task sup hsome
    · exact h.born other sup'' hif
  · intro other name hmem
    exact h.asked other name (by simpa using hmem)

variable {events : List DashboardEvent}

theorem Consistent.run (h : Consistent log s) {input : SupervisorInput}
    (hsome : s.supervisors task = some sup) (ok : Undisturbed log s (.supervisor task input))
    (taken : s.run task sup input = some (s', events)) : Consistent (log ++ events) s' := by
  have hown := h.own task sup hsome
  have hmoves : ∀ stage, writes stage = none →
      Consistent (log ++ []) (s.setSupervisor task { sup with stage := stage }) := by
    intro stage hwrites
    rw [List.append_nil]
    exact h.setSupervisor hsome (hown.stage hwrites)
  unfold Dashboard.run at taken
  cases input with
  | look =>
    dsimp only at taken
    split at taken
    · split at taken
      · cases taken
        exact hmoves .ended rfl
      · split at taken
        · cases taken
          exact hmoves .sleeping rfl
        · next snapshot hget =>
            cases taken
            exact hmoves (.observing snapshot) rfl
    · cases taken
  | observe observation probedAtMs nowMs =>
    dsimp only at taken
    split at taken
    · split at taken
      · cases taken
        rw [List.append_nil]
        exact h.setSupervisor hsome (hown.observed _ _ _ _)
      · cases taken
    · cases taken
  | publish =>
    dsimp only at taken
    split at taken
    · next row sup' hpublished =>
        cases taken
        exact h.publish hsome hpublished ok
    · cases taken
  | attempt outcome =>
    dsimp only at taken
    split at taken
    · next snapshot probedAtMs hstage =>
        split at taken
        · cases taken
          exact h.report hsome (ok sup hsome) snapshot probedAtMs
        · cases taken
          exact hmoves .sleeping rfl
    · cases taken
  | notified nowMs =>
    dsimp only at taken
    split at taken
    · cases taken
      rw [List.append_nil]
      exact h.setSupervisor hsome (hown.notified _ _ _)
    · cases taken
  | wake =>
    dsimp only at taken
    split at taken
    · cases taken
      exact hmoves .looking rfl
    · cases taken
  | seeCancelled =>
    dsimp only at taken
    split at taken
    · split at taken
      · cases taken
        exact hmoves .ended rfl
      · cases taken
        exact hmoves .ended rfl
      · cases taken
    · cases taken

/-! ## Every run -/

theorem Consistent.step (h : Consistent log s) {i : DashboardInput}
    (ok : Undisturbed log s i) (taken : s.step i = some (s', events)) :
    Consistent (log ++ events) s' := by
  have hsame : ∀ t : Dashboard, t.rows = s.rows → t.lastPass = s.lastPass →
      t.supervisors = s.supervisors → t.nextSupervisor = s.nextSupervisor →
        Consistent (log ++ []) t := by
    intro t hrows hlast hsups hnext
    rw [List.append_nil]
    refine h.supervise hrows hlast (Nat.le_of_eq hnext.symm) ?_
    intro task sup hsome
    rw [hsups] at hsome
    rw [hnext]
    exact ⟨h.own task sup hsome, h.born task sup hsome⟩
  unfold Dashboard.step at taken
  cases i with
  | tick duration =>
    cases taken
    exact hsame _ rfl rfl rfl rfl
  | enumerate services =>
    dsimp only at taken
    split at taken
    · cases taken
      exact hsame _ rfl rfl rfl rfl
    · split at taken
      · cases taken
        exact hsame _ rfl rfl rfl rfl
      · cases taken
    · cases taken
  | sync =>
    dsimp only at taken
    split at taken
    · next services hpass =>
        cases taken
        exact h.sync (ok services hpass)
    · cases taken
  | reconcile =>
    dsimp only at taken
    split at taken
    · next services hpass =>
        cases taken
        rw [List.append_nil]
        exact h.reconcile services
    · cases taken
  | supervisor task input =>
    obtain ⟨sup, hsome, hrun⟩ := Option.bind_eq_some_iff.mp taken
    exact h.run hsome ok hrun

/-- The dashboard says what the last pass found, and a lifetime count is that of all restarts when
it is written and never goes down, in every run without a late or a respawned publisher. -/
theorem dashboard_consistent {policy : SupervisionPolicy} {inputs : List DashboardInput}
    (h : History step Undisturbed (new policy) inputs log s) :
    (∀ services, s.lastPass = some services → (names s.rows).Pairwise (· < ·) ∧
      (∀ name, name ∈ names s.rows ↔ services.containsKey name = true) ∧
      ∀ row ∈ s.rows, services.supervises row.name = false → row.Quiet) ∧
    Justified Counted log ∧
    ∀ row ∈ s.rows, .shown row.name row.totalRestarts ∈ log ∧
      ∀ total, .shown row.name total ∈ log → total ≤ row.totalRestarts := by
  have hconsistent : Consistent log s :=
    h.invariant Consistent (consistent_new policy) fun hinv ok taken => hinv.step ok taken
  refine ⟨?_, hconsistent.counted, hconsistent.shown⟩
  intro services hlast
  have hshows := hconsistent.shows' services hlast
  exact ⟨hconsistent.sorted, hshows.exact', hshows.stoodDown⟩

end Dashboard

namespace Evaluation

/-- A restart is due on the first failed check. -/
def eager : SupervisionPolicy := ⟨30000000000, 1, 60000000000, 900000000000⟩

def guider (state : RunState) : Services :=
  ⟨[⟨"guider", "rusty-photon-guider", state, none⟩], List.nodup_singleton _⟩

def pass (services : Services) : List DashboardInput := [.enumerate services, .sync, .reconcile]

/-- The guider is found failed, and its supervisor's failed check is published. -/
def failedCheck : List DashboardInput :=
  pass (guider .failed) ++ [.supervisor 0 .look, .supervisor 0 (.observe .down 1000 1000),
    .supervisor 0 .publish]

theorem failed_check_shown :
    ∃ log s, History Dashboard.step Dashboard.Undisturbed (Dashboard.new eager) failedCheck log s ∧
      Justified Counted log := by
  have h : History Dashboard.step Dashboard.Undisturbed (Dashboard.new eager) [] [] _ := .nil
  have h := h.snoc (i := DashboardInput.enumerate (guider .failed)) trivial rfl
  have h := h.snoc (i := DashboardInput.sync) (fun _ _ _ _ _ hmem => nomatch hmem) rfl
  have h := h.snoc (i := DashboardInput.reconcile) trivial rfl
  have h := h.snoc (i := DashboardInput.supervisor 0 .look) trivial rfl
  have h := h.snoc (i := DashboardInput.supervisor 0 (.observe .down 1000 1000)) trivial rfl
  have h := h.snoc (i := DashboardInput.supervisor 0 .publish) ?_ rfl
  · exact ⟨_, _, h, (Dashboard.dashboard_consistent h).2.1⟩
  · intro sup row hsome _
    cases hsome
    refine ⟨?_, ?_⟩
    · intro services hlast
      cases hlast
      exact .inl rfl
    · intro other _ hmem
      cases List.mem_singleton.mp hmem

/-- The check was made before the pass that finds the guider stopped, and is published after it. -/
def latePublish : List DashboardInput :=
  pass (guider .failed) ++ [.supervisor 0 .look, .supervisor 0 (.observe .down 1000 1000)] ++
    pass (guider .stopped) ++ [.supervisor 0 .publish]

/-- The guider is restarted once, stopped, and started again: its new supervisor counts from
zero. -/
def respawned : List DashboardInput :=
  failedCheck ++ [.supervisor 0 (.attempt .report), .supervisor 0 (.notified 2000),
    .supervisor 0 .publish] ++ pass (guider .stopped) ++ [.supervisor 0 .seeCancelled] ++
    pass (guider .running) ++ [.supervisor 1 .look, .supervisor 1 (.observe .unknown 3000 3000),
      .supervisor 1 .publish]

theorem dashboard_contradicts :
    (∃ log s, History Dashboard.step (fun _ _ _ => True) (Dashboard.new eager) latePublish log s ∧
      s.lastPass = some (guider .stopped) ∧
      ¬ ∀ row ∈ s.rows, (guider .stopped).supervises row.name = false → row.Quiet) ∧
    ∃ log s, History Dashboard.step (fun _ _ _ => True) (Dashboard.new eager) respawned log s ∧
      ¬ Justified Counted log := by
  refine ⟨⟨_, _, History.of_play rfl, rfl, ?_⟩, ⟨_, _, History.of_play rfl, ?_⟩⟩
  · intro hquiet
    have hrow := hquiet _ List.mem_cons_self rfl
    exact absurd hrow.1 (by decide)
  · intro hcounted
    have hshown : 0 = restarts [.shown "guider" 0, .shown "guider" 0, .restarted 0 "guider",
      .shown "guider" 1] "guider" := hcounted _ (.shown "guider" 0) [] rfl
    exact absurd hshown (by decide)

end Evaluation

end RustyPhoton.Sentinel
