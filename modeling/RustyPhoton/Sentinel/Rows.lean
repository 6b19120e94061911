import RustyPhoton.Sentinel.Dashboard

/-!
# The rows of the dashboard

What a pass and a publish make of the rows: which names there are, in which order, and which row of
the result comes from which before it.
-/

namespace RustyPhoton.Sentinel

variable {rows : List ServiceHealthStatus} {services : Services}

/-- The names of the rows. -/
def names (rows : List ServiceHealthStatus) : List String := rows.map (·.name)

/-- Health unknown, no outage, no restart scheduled. -/
def ServiceHealthStatus.Quiet (row : ServiceHealthStatus) : Prop :=
  row.health = .unknown ∧ row.consecutiveFailures = 0 ∧ row.restartsInOutage = 0 ∧
    row.nextRestartEpochMs = none

/-! ## One row -/

variable {name : String}

theorem hasRow_iff : hasRow rows name = true ↔ name ∈ names rows := by
  unfold hasRow names
  rw [List.any_eq_true, List.mem_map]
  simp only [decide_eq_true_eq]

theorem name_refresh (row : ServiceHealthStatus) (svc : DiscoveredService) :
    (row.refresh svc).name = row.name := by
  unfold ServiceHealthStatus.refresh
  dsimp only
  split
  · rfl
  · rfl

theorem totalRestarts_refresh (row : ServiceHealthStatus) (svc : DiscoveredService) :
    (row.refresh svc).totalRestarts = row.totalRestarts := by
  unfold ServiceHealthStatus.refresh
  dsimp only
  split
  · rfl
  · rfl

variable {svc : DiscoveredService}

theorem quiet_refresh (row : ServiceHealthStatus)
    (h : svc.state.supervised = false) : (row.refresh svc).Quiet := by
  unfold ServiceHealthStatus.refresh
  rw [if_neg (by rw [h]; exact Bool.false_ne_true)]
  exact ⟨rfl, rfl, rfl, rfl⟩

variable {f : ServiceHealthStatus → ServiceHealthStatus}

theorem names_modifyFirst (hf : ∀ row, row.name = name → (f row).name = name) :
    names (modifyFirst name f rows) = names rows := by
  unfold names
  induction rows with
  | nil => rfl
  | cons row rest ih =>
    rw [modifyFirst]
    split
    · next hname => rw [List.map_cons, List.map_cons, hf row hname, hname]
    · rw [List.map_cons, List.map_cons, ih]

variable {row : ServiceHealthStatus}

/-- A row of the result is a row of another name, or the changed one. -/
theorem mem_modifyFirst (hnodup : (names rows).Nodup)
    (h : row ∈ modifyFirst name f rows) :
    (row ∈ rows ∧ row.name ≠ name) ∨ ∃ old ∈ rows, old.name = name ∧ row = f old := by
  induction rows with
  | nil => cases h
  | cons first rest ih =>
    obtain ⟨hfirst, hrest⟩ := List.nodup_cons.mp hnodup
    rw [modifyFirst] at h
    split at h
    · next hname =>
        rcases List.mem_cons.mp h with heq | hmem
        · exact .inr ⟨first, List.mem_cons_self, hname, heq⟩
        · refine .inl ⟨List.mem_cons_of_mem _ hmem, ?_⟩
          intro hsame
          refine hfirst ?_
          show first.name ∈ names rest
          rw [hname, ← hsame]
          exact List.mem_map_of_mem hmem
    · next hname =>
        rcases List.mem_cons.mp h with heq | hmem
        · rw [heq]
          exact .inl ⟨List.mem_cons_self, hname⟩
        · rcases ih hrest hmem with ⟨hold, hne⟩ | ⟨old, hold, hchanged⟩
          · exact .inl ⟨List.mem_cons_of_mem _ hold, hne⟩
          · exact .inr ⟨old, List.mem_cons_of_mem _ hold, hchanged⟩

/-! ## Sorting -/

theorem perm_sortByName (rows : List ServiceHealthStatus) : (sortByName rows).Perm rows :=
  List.perm_insertionSort _ rows

theorem mem_names_sortByName :
    name ∈ names (sortByName rows) ↔ name ∈ names rows :=
  ((perm_sortByName rows).map _).mem_iff

/-- Rows of different names are sorted strictly. -/
theorem sorted_sortByName (hnodup : (names rows).Nodup) :
    (names (sortByName rows)).Pairwise (· < ·) := by
  have hperm : (names (sortByName rows)).Perm (names rows) := (perm_sortByName rows).map _
  have hsame : names (sortByName rows) = (names rows).insertionSort (· ≤ ·) :=
    List.map_insertionSort _ _ _ _ fun _ _ _ _ => Iff.rfl
  have hle : (names (sortByName rows)).Pairwise (· ≤ ·) := by
    rw [hsame]
    exact List.pairwise_insertionSort _ _
  have hne : (names (sortByName rows)).Pairwise (· ≠ ·) := hperm.nodup_iff.mpr hnodup
  exact (hle.and hne).imp fun h => lt_of_le_of_ne h.1 h.2

/-! ## A pass over the rows -/

/-- Where the rows come from once some services have been worked in. -/
structure WorkedIn (poll : Nat) (old : List ServiceHealthStatus) (found : List DiscoveredService)
    (rows : List ServiceHealthStatus) : Prop where
  nodup : (names rows).Nodup
  exact' : ∀ name, name ∈ names rows ↔ name ∈ names old ∨ name ∈ found.map (·.name)
  origin : ∀ row ∈ rows,
    (∃ svc ∈ found, ∃ before ∈ old, before.name = svc.name ∧ row = before.refresh svc) ∨
    (∃ svc ∈ found, svc.name ∉ names old ∧ row = .unknown svc poll) ∨
    (row ∈ old ∧ row.name ∉ found.map (·.name))

variable {poll : Nat} {old : List ServiceHealthStatus} {found : List DiscoveredService}

theorem WorkedIn.name_mem (h : WorkedIn poll old found rows)
    (hrow : row ∈ rows) (hnew : row.name ∉ found.map (·.name)) :
    row ∈ old := by
  obtain ⟨svc, hsvc, before, -, hname, rfl⟩ | ⟨svc, hsvc, -, rfl⟩ | ⟨hold, -⟩ := h.origin row hrow
  · rw [name_refresh, hname] at hnew
    exact (hnew (List.mem_map_of_mem hsvc)).elim
  · exact (hnew (List.mem_map_of_mem hsvc)).elim
  · exact hold

/-- One more service. -/
theorem WorkedIn.syncService (h : WorkedIn poll old found rows)
    (hnew : svc.name ∉ found.map (·.name)) :
    WorkedIn poll old (found ++ [svc]) (syncService poll rows svc) := by
  have hmore : ∀ name, name ∈ (found ++ [svc]).map (·.name) ↔
      name ∈ found.map (·.name) ∨ name = svc.name := by
    intro name
    rw [List.map_append, List.mem_append]
    simp
  unfold Sentinel.syncService
  split
  · next hhas =>
      rw [hasRow_iff] at hhas
      have hnames : names (modifyFirst svc.name (·.refresh svc) rows) = names rows :=
        names_modifyFirst fun row hname => (name_refresh row svc).trans hname
      have hold : svc.name ∈ names old := ((h.exact' svc.name).mp hhas).resolve_right hnew
      refine ⟨by rw [hnames]; exact h.nodup, ?_, ?_⟩
      · intro name
        rw [hnames, h.exact', hmore]
        constructor
        · exact Or.imp_right .inl
        · rintro (hin | hin | rfl)
          · exact .inl hin
          · exact .inr hin
          · exact .inl hold
      · intro row hrow
        rcases mem_modifyFirst h.nodup hrow with ⟨hrow, hne⟩ | ⟨before, hbefore, hname, rfl⟩
        · obtain ⟨other, hother, hfrom⟩ | ⟨other, hother, hfrom⟩ | ⟨hkept, hnot⟩ :=
            h.origin row hrow
          · exact .inl ⟨other, List.mem_append_left _ hother, hfrom⟩
          · exact .inr (.inl ⟨other, List.mem_append_left _ hother, hfrom⟩)
          · refine .inr (.inr ⟨hkept, ?_⟩)
            rw [hmore]
            rintro (hin | heq)
            · exact hnot hin
            · exact hne heq
        · have hkept : before ∈ old := h.name_mem hbefore (by rw [hname]; exact hnew)
          exact .inl ⟨svc, List.mem_append_right _ List.mem_cons_self, before, hkept, hname, rfl⟩
  · next hhas =>
      rw [hasRow_iff] at hhas
      have hnames : names (rows ++ [.unknown svc poll]) = names rows ++ [svc.name] :=
        List.map_append
      have hnold : svc.name ∉ names old := fun hin => hhas ((h.exact' svc.name).mpr (.inl hin))
      refine ⟨?_, ?_, ?_⟩
      · rw [hnames]
        exact List.nodup_append.mpr ⟨h.nodup, List.nodup_singleton _, by
          intro a ha b hb heq
          rw [List.mem_singleton.mp hb] at heq
          exact hhas (heq ▸ ha)⟩
      · intro name
        rw [hnames, List.mem_append, List.mem_singleton, h.exact', hmore, or_assoc]
      · intro row hrow
        rcases List.mem_append.mp hrow with hrow | hrow
        · obtain ⟨other, hother, hfrom⟩ | ⟨other, hother, hfrom⟩ | ⟨hkept, hnot⟩ :=
            h.origin row hrow
          · exact .inl ⟨other, List.mem_append_left _ hother, hfrom⟩
          · exact .inr (.inl ⟨other, List.mem_append_left _ hother, hfrom⟩)
          · refine .inr (.inr ⟨hkept, ?_⟩)
            rw [hmore]
            rintro (hin | heq)
            · exact hnot hin
            · exact hnold (heq ▸ List.mem_map_of_mem hkept)
        · rw [List.mem_singleton.mp hrow]
          exact .inr (.inl ⟨svc, List.mem_append_right _ List.mem_cons_self, hnold, rfl⟩)

theorem workedIn_foldl (found : List DiscoveredService) {rest : List DiscoveredService}
    (h : WorkedIn poll old found rows)
    (hnodup : ((found ++ rest).map (·.name)).Nodup) :
    WorkedIn poll old (found ++ rest) (rest.foldl (syncService poll) rows) := by
  induction rest generalizing found rows with
  | nil => rwa [List.append_nil]
  | cons svc rest ih =>
    rw [← List.singleton_append, ← List.append_assoc] at hnodup ⊢
    refine ih _ (h.syncService ?_) hnodup
    rw [List.map_append, List.map_append, List.append_assoc] at hnodup
    have hdisjoint := (List.nodup_append.mp hnodup).2.2
    intro hin
    exact hdisjoint svc.name hin svc.name (by simp) rfl

/-- The rows kept by a pass, before its services are worked in. -/
theorem workedIn_filter (services : Services) (hnodup : (names rows).Nodup) (poll : Nat) :
    WorkedIn poll (rows.filter fun row => services.containsKey row.name) services.values
      (services.values.foldl (syncService poll)
        (rows.filter fun row => services.containsKey row.name)) := by
  refine workedIn_foldl [] ⟨?_, ?_, ?_⟩ services.nodup
  · exact hnodup.sublist (List.filter_sublist.map _)
  · intro name
    simp
  · intro row hrow
    exact .inr (.inr ⟨hrow, List.not_mem_nil⟩)

/-- What the dashboard should show after a pass, and until the next one. -/
structure Shows (services : Services) (rows : List ServiceHealthStatus) : Prop where
  exact' : ∀ name, name ∈ names rows ↔ services.containsKey name = true
  stoodDown : ∀ row ∈ rows, services.supervises row.name = false → row.Quiet

theorem mem_names_values :
    name ∈ services.values.map (·.name) ↔ services.containsKey name = true := by
  unfold Services.containsKey
  rw [List.contains_iff_mem]

theorem shows_sync (hnodup : (names rows).Nodup) (poll : Nat) :
    Shows services (syncDiscoveredServices rows services poll) := by
  have h := workedIn_filter services hnodup poll
  refine ⟨?_, ?_⟩
  · intro name
    rw [syncDiscoveredServices, mem_names_sortByName, h.exact', mem_names_values]
    constructor
    · rintro (hold | hfound)
      · obtain ⟨row, hrow, rfl⟩ := List.mem_map.mp hold
        exact (List.mem_filter.mp hrow).2
      · exact hfound
    · exact .inr
  · intro row hrow hleft
    have hrow := (perm_sortByName _).mem_iff.mp hrow
    obtain ⟨svc, hsvc, before, -, hname, rfl⟩ | ⟨svc, -, -, rfl⟩ | ⟨hold, hnot⟩ :=
      h.origin row hrow
    · rw [name_refresh, hname, Services.supervises_of_mem hsvc] at hleft
      exact quiet_refresh before hleft
    · exact ⟨rfl, rfl, rfl, rfl⟩
    · rw [mem_names_values] at hnot
      exact (hnot (List.mem_filter.mp hold).2).elim

theorem sorted_sync (hnodup : (names rows).Nodup) (poll : Nat) :
    (names (syncDiscoveredServices rows services poll)).Pairwise (· < ·) :=
  sorted_sortByName (workedIn_filter services hnodup poll).nodup

/-- A pass keeps the lifetime counts, and starts that of a new row at zero. -/
theorem total_sync (hnodup : (names rows).Nodup)
    (hrow : row ∈ syncDiscoveredServices rows services poll) :
    (∃ old ∈ rows, old.name = row.name ∧ old.totalRestarts = row.totalRestarts) ∨
    (row.totalRestarts = 0 ∧ row.name ∉ names rows ∧ services.containsKey row.name = true) := by
  have hrow := (perm_sortByName _).mem_iff.mp hrow
  obtain ⟨svc, -, before, hbefore, -, rfl⟩ | ⟨svc, hsvc, hnot, rfl⟩ | ⟨hold, -⟩ :=
    (workedIn_filter services hnodup poll).origin row hrow
  · refine .inl ⟨before, (List.mem_filter.mp hbefore).1, ?_, ?_⟩
    · rw [name_refresh]
    · rw [totalRestarts_refresh]
  · have hfound : services.containsKey svc.name = true :=
      Services.containsKey_iff.mpr ⟨svc, hsvc, rfl⟩
    refine .inr ⟨rfl, ?_, hfound⟩
    intro hin
    obtain ⟨old, hold, hname⟩ := List.mem_map.mp hin
    refine hnot ?_
    show (ServiceHealthStatus.unknown svc poll).name ∈ _
    rw [← hname]
    refine List.mem_map_of_mem (List.mem_filter.mpr ⟨hold, ?_⟩)
    rw [hname]
    exact hfound
  · exact .inl ⟨row, (List.mem_filter.mp hold).1, rfl, rfl⟩

/-! ## Publishing -/

variable {status : ServiceHealthStatus}

/-- A row that has its place replaces what was there. -/
theorem names_setServiceHealth (h : status.name ∈ names rows) :
    names (setServiceHealth rows status) = names rows := by
  unfold setServiceHealth
  rw [if_pos (hasRow_iff.mpr h)]
  exact names_modifyFirst fun _ _ => rfl

theorem mem_setServiceHealth (hnodup : (names rows).Nodup)
    (hrow : row ∈ setServiceHealth rows status) :
    (row ∈ rows ∧ row.name ≠ status.name) ∨ row = status := by
  unfold setServiceHealth at hrow
  split at hrow
  · rcases mem_modifyFirst hnodup hrow with hother | ⟨_, -, -, heq⟩
    · exact .inl hother
    · exact .inr heq
  · next hhas =>
      have hrow := (perm_sortByName _).mem_iff.mp hrow
      rcases List.mem_append.mp hrow with hold | hnew
      · refine .inl ⟨hold, ?_⟩
        intro hsame
        refine hhas (hasRow_iff.mpr ?_)
        rw [← hsame]
        exact List.mem_map_of_mem hold
      · exact .inr (List.mem_singleton.mp hnew)

theorem sorted_setServiceHealth (hsorted : (names rows).Pairwise (· < ·)) :
    (names (setServiceHealth rows status)).Pairwise (· < ·) := by
  by_cases hhas : status.name ∈ names rows
  · rwa [names_setServiceHealth hhas]
  · unfold setServiceHealth
    rw [if_neg (fun h => hhas (hasRow_iff.mp h))]
    refine sorted_sortByName ?_
    unfold names
    rw [List.map_append]
    refine List.nodup_append.mpr ⟨hsorted.imp ne_of_lt, List.nodup_singleton _, ?_⟩
    intro a ha b hb heq
    rw [List.mem_singleton.mp hb] at heq
    have hsame : a = status.name := heq
    exact hhas (hsame ▸ ha)

/-- A row may be published of a service the last pass supervises, and a quiet one of any. -/
theorem Shows.publish (h : Shows services rows) (hnodup : (names rows).Nodup)
    (ok : services.supervises status.name = true ∨
      (services.containsKey status.name = true ∧ status.Quiet)) :
    Shows services (setServiceHealth rows status) := by
  have hfound : services.containsKey status.name = true :=
    ok.elim Services.containsKey_of_supervises And.left
  refine ⟨?_, ?_⟩
  · rw [names_setServiceHealth ((h.exact' _).mpr hfound)]
    exact h.exact'
  · intro row hrow hleft
    rcases mem_setServiceHealth hnodup hrow with ⟨hold, -⟩ | rfl
    · exact h.stoodDown row hold hleft
    · rcases ok with hsupervised | ⟨-, hquiet⟩
      · cases hleft.symm.trans hsupervised
      · exact hquiet

end RustyPhoton.Sentinel
