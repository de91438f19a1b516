import SqlScript.Proofs.Batch.Aggregate
import SqlScript.Proofs.Batch.Permits

/-!
# Driven batches

`Batch.run` follows one run of a batch until nothing can happen any more. Each event leaves fewer to
come (`Run.Change.toCome_lt`), so the run is at rest in time (`Run.atRest_drive`), and what holds of
every run holds of this one: `Batch.mem_names_run_iff` says which jobs are on record, and
`Batch.isComplete_run_iff` that the status tells whether any are missing.
-/

namespace SqlScript

namespace Run
variable {work : Job → Work} {cap : Option Nat} {jobs : List Job} {r r' : Run} {e : Event}

/-- The number of events that can come before the collector stops, if every job ends. -/
def toCome (r : Run) : Nat :=
  6 * r.idle.length + 5 * r.waiting.length + 4 * r.running.length + 2 * r.reported.length +
    r.leaving.length + r.queue.length

theorem toCome_start (jobs : List Job) : (start jobs).toCome = 6 * (start jobs).submitted := by
  simp [start, toCome]

theorem Change.toCome_lt (hc : r.Change work cap e r') (hstop : ∀ status, e ≠ .stop status) :
    r'.toCome < r.toCome := by
  cases hc with
  | ask _ hj | start _ hj | release hj | leave hj =>
    have := List.length_erase_add_one hj
    simp only [toCome, List.length_append, List.length_singleton]
    omega
  | grant hj =>
    simp only [toCome, hj, List.length_append, List.length_cons, List.length_nil]
    omega
  | @send j outcome hj =>
    have := List.length_erase_add_one hj
    have hqueue : (if r.status.isNone then r.queue ++ [(j.id, outcome)] else r.queue).length ≤
        r.queue.length + 1 := by
      split <;> simp
    simp only [toCome, List.length_append, List.length_singleton]
    omega
  | receive _ hqueue =>
    simp only [toCome, hqueue, List.length_cons]
    omega
  | stop => exact absurd rfl (hstop _)

theorem ne_stop_of_mem_candidates (he : e ∈ r.candidates) (status : Status) : e ≠ .stop status := by
  rintro rfl
  simp [candidates] at he

/-- Jobs begin in their order, and the collector is not stopped. -/
theorem Change.idle_of_mem_candidates (hc : r.Change work cap e r') (he : e ∈ r.candidates) :
    r'.status = r.status ∧ e.started?.toList ++ r'.idle = r.idle := by
  cases hc with
  | @ask j _ hj | @start j _ hj =>
    have hhead : r.idle.head? = some j := by simpa [candidates] using he
    obtain ⟨rest, hrest⟩ := List.head?_eq_some_iff.1 hhead
    exact ⟨rfl, by simp [Event.started?, hrest]⟩
  | stop => exact absurd rfl (ne_stop_of_mem_candidates he _)
  | grant | send | release | leave | receive => exact ⟨rfl, rfl⟩

theorem exists_change_of_next? (h : r.next? work cap = some r') :
    ∃ e ∈ r.candidates, r.after? work cap e = some r' :=
  List.exists_of_findSome?_eq_some h

/-- A driven run is one of the runs, in which the workers begin in the order of their jobs. -/
theorem exists_follow?_drive (work : Job → Work) (cap : Option Nat) (n : Nat) (r : Run) : ∃ events,
    follow? work cap events r = some (r.drive work cap n) ∧
      (r.drive work cap n).status = r.status ∧
      events.filterMap Event.started? ++ (r.drive work cap n).idle = r.idle := by
  induction n generalizing r with
  | zero => exact ⟨[], rfl, rfl, rfl⟩
  | succ n ih =>
    rw [drive]
    split
    · exact ⟨[], rfl, rfl, rfl⟩
    · next r' hnext =>
      obtain ⟨e, he, hafter⟩ := exists_change_of_next? hnext
      obtain ⟨events, hrun, hstatus, hidle⟩ := ih r'
      obtain ⟨hstatus', hidle'⟩ := (change_of_after? hafter).idle_of_mem_candidates he
      refine ⟨e :: events, ?_, hstatus.trans hstatus', ?_⟩
      · rw [follow?_cons, hafter, Option.bind_some, hrun]
      · rw [← hidle', ← hidle, List.filterMap_cons]
        cases e.started? <;> rfl

theorem atRest_drive {n : Nat} (h : r.toCome ≤ n) : (r.drive work cap n).AtRest work cap := by
  induction n generalizing r with
  | zero =>
    -- with nothing to come there is no next run
    change r.AtRest work cap
    refine atRest_of_next? (Option.eq_none_iff_forall_ne_some.2 fun r' hnext => ?_)
    obtain ⟨e, he, hafter⟩ := exists_change_of_next? hnext
    have := (change_of_after? hafter).toCome_lt (ne_stop_of_mem_candidates he)
    omega
  | succ n ih =>
    rw [drive]
    split
    · next hnext => exact atRest_of_next? hnext
    · next r' hnext =>
      obtain ⟨e, he, hafter⟩ := exists_change_of_next? hnext
      have := (change_of_after? hafter).toCome_lt (ne_stop_of_mem_candidates he)
      exact ih (by omega)

end Run

namespace Batch
variable {work : Job → Work} {cap : Option Nat} {early : Status} {jobs : List Job}

/-- The run behind `Batch.run`. -/
theorem exists_last (work : Job → Work) (cap : Option Nat) (early : Status) (jobs : List Job) :
    ∃ events last, Run.follow? work cap events (Run.start jobs) = some last ∧ last.status = none ∧
      last.AtRest work cap ∧ events.filterMap Event.started? <+: Job.distinct jobs ∧
      run work cap early jobs = last.close (if last.drained then .complete else early) := by
  obtain ⟨events, hrun, hstatus, hidle⟩ :=
    Run.exists_follow?_drive work cap (6 * (Run.start jobs).submitted) (Run.start jobs)
  have hrest : ((Run.start jobs).drive work cap (6 * (Run.start jobs).submitted)).AtRest work cap :=
    Run.atRest_drive (Nat.le_of_eq (Run.toCome_start jobs))
  exact ⟨events, _, hrun, hstatus, hrest, ⟨_, hidle⟩, rfl⟩

/-- The jobs on record are those that end and are behind fewer jobs that never end than there are
permits. -/
theorem mem_names_run_iff {id : String} :
    id ∈ (run work cap early jobs).entries.names ↔ ∃ before j behind,
      Job.distinct jobs = before ++ j :: behind ∧ j.id = id ∧ (work j).isEndless = false ∧
        ∀ n ∈ cap, before.countP (work · |>.isEndless) < n := by
  obtain ⟨events, last, hrun, hopen, hrest, horder, hlast⟩ := exists_last work cap early jobs
  obtain ⟨granted, hpermits⟩ := Run.exists_permits hrun
  rw [hlast]
  exact hpermits.mem_names_iff (Run.accounts_of_follow? hrun) hopen hrest fun _ => horder

/-- A batch that is driven as far as it goes says that it is complete if nothing is pending, and only
then. -/
theorem isComplete_run_iff (hearly : early ≠ .complete) :
    (run work cap early jobs).isComplete ↔ (run work cap early jobs).pending = [] := by
  obtain ⟨events, last, hrun, hopen, hrest, -, hlast⟩ := exists_last work cap early jobs
  have haccounts := Run.accounts_of_follow? hrun
  obtain ⟨hidle, hreported, hleaving, hqueue, -, -⟩ := hrest.stages hopen
  have hperm := Run.pending_close_perm last (if last.drained then .complete else early)
  rw [hlast]
  constructor
  · intro hcomplete
    have hdrained : last.drained := by
      by_contra hno
      simp [Aggregate.isComplete, Run.close, hno, hearly] at hcomplete
    rw [haccounts.pending_eq_nil hopen hdrained] at hperm
    exact hperm.eq_nil
  · intro hnil
    rw [hnil] at hperm
    have hpending := haccounts.pending hopen
    rw [hperm.symm.eq_nil] at hpending
    have hdrained : last.drained := by
      have hunreported : last.unreported = [] := by
        simpa using (List.append_eq_nil_iff.1 hpending.symm.eq_nil).2
      simp [Run.drained, hunreported, hreported, hleaving, hqueue]
    simp [Aggregate.isComplete, Run.close, hdrained]

end Batch
end SqlScript
