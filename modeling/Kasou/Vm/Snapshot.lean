import Kasou.Vm.Accounting

/-!
# Durability of a reported snapshot

`save_state` reopens and syncs the saved file after the completion handler has
fired, and ignores what comes of it.  The snapshot it reports is synced exactly
when neither of the two steps failed.
-/

namespace Kasou

/-- The file at `path` was opened and synced after the completion handler of
the save had fired. -/
def CallRecord.SyncedAfterCompletion (r : CallRecord) (path : Path) : Prop :=
  ∃ pre answer mid post,
    r.effects = pre ++ .answered .save answer ::
      (mid ++ .synced path .synced :: post)

/-- A save that returns `Ok` and announces its snapshot has synced the file,
and one that could not open or sync it fails and announces nothing. -/
def CallRecord.ReportsSynced (r : CallRecord) (path : Path) : Prop :=
  ((∃ reply, r.outcome = .returned (.ok reply)) →
    .snapshotCreated path ∈ r.events → r.SyncedAfterCompletion path) ∧
  ∀ outcome, outcome ≠ .synced → .synced path outcome ∈ r.effects →
    (∃ e, r.outcome = .returned (.error e)) ∧
      .snapshotCreated path ∉ r.events

/-- Neither reopening nor syncing the file failed, where it came to that. -/
def CallRecord.NoSyncFailed (r : CallRecord) (path : Path) : Prop :=
  ∀ outcome, .synced path outcome ∈ r.effects → outcome = .synced

namespace VmHandle

theorem reportsSynced_iff_of_runs {config : VmConfig} {path : Path}
    {es : List Effect} {o : Outcome}
    (h : ((HostCall.saveState path).body config).Runs es o) :
    CallRecord.ReportsSynced ⟨.saveState path, es, o⟩ path ↔
      CallRecord.NoSyncFailed ⟨.saveState path, es, o⟩ path := by
  rcases runs_saveState h with ⟨e, -, rfl, rfl⟩ | ⟨answer, hrest⟩
  · simp [CallRecord.ReportsSynced, CallRecord.NoSyncFailed]
  rcases hrest with ⟨outcome, -, rfl, rfl⟩ | ⟨e, -, rfl, rfl⟩
  · constructor
    · rintro ⟨-, hfailed⟩ outcome' hmem
      by_contra hne
      obtain ⟨⟨e, he⟩, -⟩ := hfailed outcome' hne hmem
      cases he
    · intro hsynced
      obtain rfl : outcome = .synced := hsynced outcome (by simp)
      refine ⟨fun _ _ => ⟨[], answer, [], _, rfl⟩, fun outcome' hne hmem => ?_⟩
      exact absurd (hsynced outcome' hmem) hne
  · simp [CallRecord.ReportsSynced, CallRecord.NoSyncFailed]

/-- In every run, a `save_state` that has ended reports a synced snapshot
exactly when no reopening or syncing of its file failed. -/
theorem saveState_reports_synced_iff (config : VmConfig) (as : List Action)
    (h : VmHandle)
    (hrun : TransitionSystem.run step (create config) as = some h)
    (path : Path) (r : CallRecord) (hr : r ∈ (ledger config as).finished)
    (hcall : r.call = .saveState path) :
    r.ReportsSynced path ↔ r.NoSyncFailed path := by
  have hruns := (run_seen hrun).explains.allRun r hr
  obtain ⟨call, es, o⟩ := r
  obtain rfl : call = .saveState path := hcall
  exact reportsSynced_iff_of_runs hruns

/-- A save that completes, with a file whose sync ends in `outcome`. -/
def savedThen (outcome : SyncOutcome) : List Action :=
  [.invoke (.saveState (rootFile "vm.snapshot")), .host 0,
    .complete .success, .host 0, .sync outcome, .host 0, .host 0]

/-- The call of such a run. -/
def savedRecord (outcome : SyncOutcome) : CallRecord where
  call := .saveState (rootFile "vm.snapshot")
  effects :=
    [.answered .save .success, .synced (rootFile "vm.snapshot") outcome,
      .emitted (.snapshotCreated (rootFile "vm.snapshot"))]
  outcome := .returned (.ok .unit)

theorem saveState_reports_synced_iff_savedThen :
    (savedRecord .synced).ReportsSynced (rootFile "vm.snapshot") ↔
      (savedRecord .synced).NoSyncFailed (rootFile "vm.snapshot") :=
  saveState_reports_synced_iff smokeConfig (savedThen .synced) _ rfl _ _
    (List.mem_singleton.mpr rfl) rfl

/-- A save whose file could not be synced returns `Ok` and is announced. -/
theorem unsynced_snapshot_reported :
    ∃ h, TransitionSystem.run step (create smokeConfig)
        (savedThen .syncFailed) = some h ∧
      (ledger smokeConfig (savedThen .syncFailed)).finished =
        [savedRecord .syncFailed] ∧
      ¬(savedRecord .syncFailed).ReportsSynced (rootFile "vm.snapshot") := by
  refine ⟨_, rfl, rfl, ?_⟩
  rintro ⟨-, hfailed⟩
  obtain ⟨⟨e, he⟩, -⟩ :=
    hfailed .syncFailed (by decide) (List.mem_cons_of_mem _ List.mem_cons_self)
  cases he

end VmHandle

end Kasou
