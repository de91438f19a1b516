import Mathlib.Control.Monad.Basic
import SqlScript.Proofs.Batch.Run
import SqlScript.Vendor.Builtin

/-!
# What a batch reports

However the workers and the collector take turns, and however a batch ends, its aggregate accounts
for every distinct job (`Aggregate.Agrees`), and an entry tells what comes of the first job with its
id alone (`aggregate_agrees`); of a worker that broke down the runtime may say something else each
time (`Outcome.Alike`). Whether it is complete shows in what is pending, unless the collector
is stopped after the last report and before it sees that all workers have left
(`stopsInTime_iff_isComplete`).
-/

namespace SqlScript

/-- The outcomes are equal, but for what the runtime says of a worker that broke down. -/
inductive Outcome.Alike : Outcome → Outcome → Prop
  | same (outcome : Outcome) : Alike outcome outcome
  | crashed (id message message' : String) :
    Alike (.error (.ofCrash id message)) (.error (.ofCrash id message'))

namespace Job
variable {v : Vendor} {reaction : List Char → Reaction} {crash crash' : Job → String}
  {read : String → Reading} {j : Job} {outcome outcome' : Outcome}

theorem guardedWork_alike {m m' id text : String}
    (h : guardedWork v reaction m id text = .done outcome)
    (h' : guardedWork v reaction m' id text = .done outcome') : outcome.Alike outcome' := by
  unfold guardedWork at h h'
  generalize ((unitStarts v text).map reaction).find? (· ≠ .answers) = first at h h'
  rcases first with - | - | - | -
  · exact Work.done.inj (h.symm.trans h') ▸ .same outcome
  · exact Work.done.inj (h.symm.trans h') ▸ .same outcome
  · cases h
    cases h'
    exact .crashed id m m'
  · cases h

/-- A job comes to the same whatever the runtime says of it, but for what it says. -/
theorem workWith_alike (h : workWith v reaction crash read j = .done outcome)
    (h' : workWith v reaction crash' read j = .done outcome') :
    outcome.Alike outcome' ∧ (crash' j = crash j → outcome' = outcome) := by
  refine ⟨?_, fun heq => ?_⟩
  · unfold workWith workOn at h h'
    cases hj : j.source with
    | text content =>
      rw [hj] at h h'
      exact guardedWork_alike h h'
    | file path =>
      rw [hj] at h h'
      cases hread : (read path).decode with
      | text content =>
        simp only [hread] at h h'
        exact guardedWork_alike h h'
      | fault fault =>
        simp only [hread] at h h'
        exact Work.done.inj (h.symm.trans h') ▸ .same outcome
      | endless =>
        simp only [hread] at h
        cases h
  · rw [workWith, heq] at h'
    exact Work.done.inj (h'.symm.trans h)

end Job

/-- What an aggregate tells of the jobs: of several with one id the first counts. -/
structure Aggregate.Agrees (work : Job → Work) (jobs : List Job) (a : Aggregate) : Prop where
  covers : ∀ id, id ∈ a.entries.names ∨ id ∈ a.pending ↔ ∃ j ∈ jobs, j.id = id
  disjoint : ∀ id ∈ a.entries.names, id ∉ a.pending
  sorted : a.pending.Pairwise (· < ·)
  submitted : a.submitted = a.entries.size + a.pending.length
  outcome : ∀ id outcome, a.entries.get? id = some outcome →
    ∃ j, jobs.find? (·.id == id) = some j ∧ work j = .done outcome
  complete : a.isComplete → a.pending = []

namespace Run
variable {work : Job → Work} {cap : Option Nat} {jobs : List Job} {r r' r₀ : Run} {e : Event}
  {events : List Event} {status : Status} {a : Aggregate}

theorem aggregate?_eq_some (h : r.aggregate? = some a) :
    ∃ status, r.status = some status ∧ a = r.close status := by
  obtain ⟨status, hs, ha⟩ := Option.map_eq_some_iff.1 h
  exact ⟨status, hs, ha.symm⟩

theorem pending_close_perm (r : Run) (status : Status) : (r.close status).pending.Perm r.pending :=
  List.mergeSort_perm _ _

theorem pending_close_pairwise (hr : r.pending.Nodup) (status : Status) :
    (r.close status).pending.Pairwise (· < ·) := by
  have hle : (r.close status).pending.Pairwise (· ≤ ·) := by
    have htrans : ∀ a b c : String, decide (a ≤ b) → decide (b ≤ c) → decide (a ≤ c) := fun a b c => by
      simpa using String.le_trans
    have htotal : ∀ a b : String, decide (a ≤ b) || decide (b ≤ a) := fun a b => by
      simpa using String.le_total a b
    simpa [close] using List.pairwise_mergeSort htrans htotal r.pending
  have hne : (r.close status).pending.Nodup := (pending_close_perm r status).nodup_iff.2 hr
  exact hle.imp₂ (fun a b hab hne => String.not_le.1 fun hba => hne (String.le_antisymm hab hba)) hne

theorem Accounts.agrees (h : r.Accounts work jobs) (ha : r.aggregate? = some a) :
    a.Agrees work jobs := by
  obtain ⟨status, hs, rfl⟩ := aggregate?_eq_some ha
  obtain ⟨-, hpending, hdisjoint⟩ := List.nodup_append.1 h.nodup
  have hperm := pending_close_perm r status
  refine ⟨fun id => ?_, fun id hid hp => ?_, pending_close_pairwise hpending status, ?_,
    fun id o ho => ?_, fun hc => ?_⟩
  · rw [hperm.mem_iff, ← List.mem_append, ← Job.mem_ids_distinct_iff]
    exact h.ids.mem_iff
  · exact hdisjoint id hid id (hperm.mem_iff.1 hp) rfl
  · have hlen := h.ids.length_eq
    rw [List.length_append, List.length_map, NameMap.names, List.length_map] at hlen
    rw [hperm.length_eq]
    exact h.submitted.trans hlen.symm
  · obtain ⟨j, hj, rfl, hwork⟩ := h.entries id o ho
    exact ⟨j, Job.find?_of_mem_distinct hj, hwork⟩
  · obtain rfl : status = .complete := by simpa [Aggregate.isComplete, close] using hc
    have hnil := h.complete hs
    exact (hnil ▸ hperm).eq_nil

/-- However a batch of jobs goes and ends, its aggregate accounts for the jobs, and an entry tells
what the first job with its id comes to in a batch of its own; only what the runtime says of a worker
that broke down may be another text there. -/
theorem aggregate_agrees {v : Vendor} {reaction : List Char → Reaction} {crash : Job → String}
    {read : String → Reading}
    (h : follow? (Job.workWith v reaction crash read) cap events (start jobs) = some r)
    (ha : r.aggregate? = some a) :
    a.Agrees (Job.workWith v reaction crash read) jobs ∧
      ∀ id outcome, a.entries.get? id = some outcome → ∃ j, jobs.find? (·.id == id) = some j ∧
        ∀ crash' cap' events' r' b,
          follow? (Job.workWith v reaction crash' read) cap' events' (start [j]) = some r' →
          r'.aggregate? = some b → b.isComplete → ∃ outcome', b.entries.get? id = some outcome' ∧
            outcome.Alike outcome' ∧ (crash' j = crash j → outcome' = outcome) := by
  have hagrees := (accounts_of_follow? h).agrees ha
  refine ⟨hagrees, fun id outcome hout => ?_⟩
  obtain ⟨j, hj, hwork⟩ := hagrees.outcome id outcome hout
  have hjid : j.id = id := by simpa using List.find?_some hj
  refine ⟨j, hj, fun crash' cap' events' r' b h' hb hcomplete => ?_⟩
  have halone := (accounts_of_follow? h').agrees hb
  have hmem : id ∈ b.entries.names := by
    have := (halone.covers id).2 ⟨j, List.mem_singleton_self j, hjid⟩
    simpa [halone.complete hcomplete] using this
  obtain ⟨outcome', hout'⟩ := NameMap.mem_names_iff.1 hmem
  obtain ⟨i, hi, hwork'⟩ := halone.outcome id outcome' hout'
  obtain rfl : i = j := by simpa using List.mem_of_find?_eq_some hi
  exact ⟨outcome', hout', Job.workWith_alike hwork hwork'⟩

/-- Two jobs with one id, a script that fails and a vendor that crashes; the deadline comes before
the last job has reported. The job whose worker breaks down fails alone too, with another text. -/
theorem aggregate_agrees_deadline :
    let reaction (text : List Char) : Reaction := if text.head? = some '!' then .crashes else .answers
    let work (message : String) := Job.workWith oracle reaction (fun _ => message) fun _ => .endless
    let failing : Job := .ofText "b" "\x27"
    let crashing : Job := .ofText "a" "!"
    let jobs : List Job := [failing, crashing, .ofText "b" "x;", .ofText "c" "y"]
    let events : List Event := [.start crashing, .start failing, .send failing, .send crashing, .receive,
      .receive, .stop .deadlineExpired]
    let aloneEvents : List Event := [.start crashing, .send crashing, .receive, .release crashing,
      .leave crashing, .stop .complete]
    let crashed (message : String) : Outcome := .error ⟨"a", .crashed, message, none⟩
    ∃ r a r' b, follow? (work "task 7 panicked") none events (start jobs) = some r ∧ r.aggregate? = some a ∧
      follow? (work "task 9 panicked") none aloneEvents (start [crashing]) = some r' ∧
      r'.aggregate? = some b ∧ a.Agrees (work "task 7 panicked") jobs ∧ a.pending = ["c"] ∧
      a.entries.entries = [("a", crashed "task 7 panicked"), ("b", .error
        ⟨"b", .splitFailed, "unterminated \x27 quote opened at line 1, column 1", some ⟨0, 1, 1⟩⟩)] ∧
      b.isComplete ∧ b.entries.get? "a" = some (crashed "task 9 panicked") ∧
      (crashed "task 7 panicked").Alike (crashed "task 9 panicked") := by
  intro reaction work failing crashing jobs events aloneEvents crashed
  have hrun : ((follow? (work "task 7 panicked") none events (start jobs)).bind aggregate?).map
      (fun a => (a.pending, a.entries.entries)) = some (["c"], [("a", crashed "task 7 panicked"),
        ("b", .error ⟨"b", .splitFailed, "unterminated \x27 quote opened at line 1, column 1",
          some ⟨0, 1, 1⟩⟩)]) := by decide +kernel
  have halone : ((follow? (work "task 9 panicked") none aloneEvents (start [crashing])).bind
      aggregate?).map (fun b => (b.isComplete, b.entries.get? "a")) =
        some (true, some (crashed "task 9 panicked")) := by decide +kernel
  obtain ⟨a, hbind, heq⟩ := Option.map_eq_some_iff.1 hrun
  obtain ⟨r, hr, ha⟩ := Option.bind_eq_some_iff.1 hbind
  obtain ⟨hpending, hentries⟩ := Prod.mk.inj heq
  obtain ⟨b, hbind', heq'⟩ := Option.map_eq_some_iff.1 halone
  obtain ⟨r', hr', hb⟩ := Option.bind_eq_some_iff.1 hbind'
  obtain ⟨hcomplete, hcrashed⟩ := Prod.mk.inj heq'
  obtain ⟨hagrees, hfirst⟩ := aggregate_agrees hr ha
  have hget : a.entries.get? "a" = some (crashed "task 7 panicked") := by
    rw [NameMap.get?, hentries]
    rfl
  obtain ⟨j, hj, hsame⟩ := hfirst "a" _ hget
  have hfind : jobs.find? (·.id == "a") = some crashing := by decide +kernel
  obtain rfl : crashing = j := Option.some.inj (hfind.symm.trans hj)
  obtain ⟨outcome, hout, halike, -⟩ := hsame _ _ _ _ _ hr' hb hcomplete
  obtain rfl : crashed "task 9 panicked" = outcome := Option.some.inj (hcrashed.symm.trans hout)
  exact ⟨r, a, r', b, hr, ha, hr', hb, hagrees, hpending, hentries, hcomplete, hcrashed, halike⟩

end Run
end SqlScript
