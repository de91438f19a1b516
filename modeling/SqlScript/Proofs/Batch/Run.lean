import Mathlib.Data.List.Induction
import Mathlib.Data.List.Perm.Basic
import SqlScript.Batch.Run

/-!
# Runs of a batch

`Run.change_of_after?` says what each event does to a run, `Run.follow?_induction` is the induction
along the events. `Run.Accounts` holds of every state a batch can get into: the entries and the
pending ids share out the ids of the jobs between them, and as long as the collector has not stopped
an id is pending exactly as long as its worker has not reported or its report is not received.
-/

namespace SqlScript

namespace Job
variable {seen : List String} {jobs : List Job} {j : Job}

theorem mem_ids_distinctFrom_iff {id : String} :
    id ∈ (distinctFrom seen jobs).map (·.id) ↔ id ∉ seen ∧ ∃ j ∈ jobs, j.id = id := by
  induction jobs generalizing seen with
  | nil => simp [distinctFrom]
  | cons i rest ih =>
    by_cases hi : i.id ∈ seen
    · rw [distinctFrom, if_pos (by simpa using hi), ih]
      simp only [List.mem_cons, exists_eq_or_imp]
      exact and_congr_right fun hid => ⟨.inr, fun h => h.resolve_left fun he => hid (he ▸ hi)⟩
    · rw [distinctFrom, if_neg (by simpa using hi), List.map_cons, List.mem_cons, ih]
      simp only [List.mem_cons, exists_eq_or_imp, not_or]
      by_cases hid : id = i.id
      · simp [hid, hi]
      · simp [hid, Ne.symm hid]

theorem nodup_ids_distinctFrom : ((distinctFrom seen jobs).map (·.id)).Nodup := by
  induction jobs generalizing seen with
  | nil => simp [distinctFrom]
  | cons i rest ih =>
    rw [distinctFrom]
    split
    · exact ih
    · refine List.nodup_cons.2 ⟨fun h => ?_, ih⟩
      exact (mem_ids_distinctFrom_iff.1 h).1 List.mem_cons_self

theorem find?_of_mem_distinctFrom (h : j ∈ distinctFrom seen jobs) :
    jobs.find? (·.id == j.id) = some j := by
  have hids : ∀ {seen rest}, j ∈ distinctFrom seen rest → j.id ∉ seen := fun h =>
    (mem_ids_distinctFrom_iff.1 (List.mem_map_of_mem (f := (·.id)) h)).1
  induction jobs generalizing seen with
  | nil => cases h
  | cons i rest ih =>
    have hseen := hids h
    rw [distinctFrom] at h
    split at h
    · next hi =>
      have hne : i.id ≠ j.id := fun he => hseen (he ▸ by simpa using hi)
      simpa [List.find?_cons, hne] using ih h
    · rcases List.mem_cons.1 h with rfl | h
      · simp
      · have hne : i.id ≠ j.id := fun he => hids h (he ▸ List.mem_cons_self)
        simpa [List.find?_cons, hne] using ih h

theorem nodup_ids_distinct (jobs : List Job) : ((distinct jobs).map (·.id)).Nodup :=
  nodup_ids_distinctFrom

theorem mem_ids_distinct_iff {id : String} :
    id ∈ (distinct jobs).map (·.id) ↔ ∃ j ∈ jobs, j.id = id := by
  rw [distinct, mem_ids_distinctFrom_iff]
  simp

theorem find?_of_mem_distinct (h : j ∈ distinct jobs) : jobs.find? (·.id == j.id) = some j :=
  find?_of_mem_distinctFrom h

end Job

namespace Run
variable {work : Job → Work} {cap : Option Nat} {jobs : List Job} {r r' : Run} {e : Event}
  {events : List Event}

/-- What each event does to a run, and when it can happen. -/
inductive Change (work : Job → Work) (cap : Option Nat) (r : Run) : Event → Run → Prop
  | ask {j : Job} (hcap : cap.isSome) (hj : j ∈ r.idle) :
    Change work cap r (.start j) { r with idle := r.idle.erase j, waiting := r.waiting ++ [j] }
  | start {j : Job} (hcap : cap = none) (hj : j ∈ r.idle) :
    Change work cap r (.start j) { r with idle := r.idle.erase j, running := r.running ++ [j] }
  | grant {j : Job} {waiting : List Job} (hj : r.waiting = j :: waiting) (hpermit : r.hasPermit cap) :
    Change work cap r .grant { r with waiting, running := r.running ++ [j] }
  | send {j : Job} {outcome : Outcome} (hj : j ∈ r.running) (hwork : work j = .done outcome) :
    Change work cap r (.send j) { r with
      running := r.running.erase j
      reported := r.reported ++ [j]
      queue := if r.status.isNone then r.queue ++ [(j.id, outcome)] else r.queue }
  | release {j : Job} (hj : j ∈ r.reported) :
    Change work cap r (.release j)
      { r with reported := r.reported.erase j, leaving := r.leaving ++ [j] }
  | leave {j : Job} (hj : j ∈ r.leaving) :
    Change work cap r (.leave j) { r with leaving := r.leaving.erase j, left := r.left ++ [j] }
  | receive {id : String} {outcome : Outcome} {queue : List Report} (hopen : r.status = none)
    (hqueue : r.queue = (id, outcome) :: queue) :
    Change work cap r .receive
      { r with queue, entries := r.entries.insert id outcome, pending := r.pending.erase id }
  | stop {status : Status} (hopen : r.status = none) (hdrained : status = .complete → r.drained) :
    Change work cap r (.stop status) { r with status := some status }

theorem change_of_after? (h : r.after? work cap e = some r') : r.Change work cap e r' := by
  cases e with
  | start j =>
    simp only [after?] at h
    split at h
    · next hj =>
      split at h
      · next hcap => cases h; exact .ask hcap hj
      · next hcap => cases h; exact .start (by simpa using hcap) hj
    · cases h
  | grant =>
    simp only [after?] at h
    split at h
    · cases h
    · next hj =>
      split at h
      · next hpermit => cases h; exact .grant hj hpermit
      · cases h
  | send j =>
    simp only [after?] at h
    split at h
    · next hj =>
      split at h
      · cases h
      · next hwork => cases h; exact .send hj hwork
    · cases h
  | release j =>
    simp only [after?] at h
    split at h
    · next hj => cases h; exact .release hj
    · cases h
  | leave j =>
    simp only [after?] at h
    split at h
    · next hj => cases h; exact .leave hj
    · cases h
  | receive =>
    simp only [after?] at h
    split at h
    · next hopen hqueue => cases h; exact .receive hopen hqueue
    · cases h
  | stop status =>
    simp only [after?] at h
    split at h
    · cases h
    · next hno =>
      cases h
      simp only [Bool.or_eq_true, Bool.and_eq_true, beq_iff_eq, not_or, not_and, Bool.not_eq_true',
        Option.not_isSome_iff_eq_none, Bool.not_eq_false] at hno
      exact .stop hno.1 hno.2

/-- A job that moves on from one stage to another is still among the same jobs. -/
theorem perm_moved {j : Job} {stage : List Job} (hj : j ∈ stage) (between behind : List Job) :
    (stage.erase j ++ (between ++ j :: behind)).Perm (stage ++ (between ++ behind)) :=
  calc (stage.erase j ++ (between ++ j :: behind)).Perm (j :: (stage.erase j ++ (between ++ behind))) :=
        (List.perm_middle.append_left _).trans List.perm_middle
    _ |>.Perm (stage ++ (between ++ behind)) := (List.perm_cons_erase hj).symm.append_right _

@[simp] theorem follow?_nil (r : Run) : follow? work cap [] r = some r := rfl

theorem follow?_cons (e : Event) (events : List Event) (r : Run) :
    follow? work cap (e :: events) r = (r.after? work cap e).bind (follow? work cap events) :=
  List.foldlM_cons

theorem follow?_append (first last : List Event) (r : Run) :
    follow? work cap (first ++ last) r = (follow? work cap first r).bind (follow? work cap last) :=
  List.foldlM_append

theorem follow?_concat (events : List Event) (e : Event) (r : Run) :
    follow? work cap (events ++ [e]) r = (follow? work cap events r).bind (·.after? work cap e) := by
  rw [follow?_append]
  refine congrArg _ (funext fun s => ?_)
  rw [follow?_cons]
  exact Option.bind_fun_some _

/-- What holds at the start and is kept by each event holds after all of them. -/
theorem follow?_induction {motive : List Event → Run → Prop} {r₀ : Run} (start : motive [] r₀)
    (step : ∀ events r e r', follow? work cap events r₀ = some r → motive events r →
      r.Change work cap e r' → motive (events ++ [e]) r')
    (h : follow? work cap events r₀ = some r) : motive events r := by
  induction events using List.reverseRecOn generalizing r with
  | nil =>
    obtain rfl : r₀ = r := Option.some.inj h
    exact start
  | append_singleton events e ih =>
    rw [follow?_concat, Option.bind_eq_some_iff] at h
    obtain ⟨s, hs, he⟩ := h
    exact step events s e r hs (ih hs) (change_of_after? he)

/-- What a batch of the jobs owes to its jobs in every state. -/
structure Accounts (work : Job → Work) (jobs : List Job) (r : Run) : Prop where
  submitted : r.submitted = (Job.distinct jobs).length
  ids : (r.entries.names ++ r.pending).Perm ((Job.distinct jobs).map (·.id))
  entries : ∀ id outcome, r.entries.get? id = some outcome →
    ∃ j ∈ Job.distinct jobs, j.id = id ∧ work j = .done outcome
  queue : ∀ p ∈ r.queue, ∃ j ∈ Job.distinct jobs, j.id = p.1 ∧ work j = .done p.2
  unreported : ∀ j ∈ r.unreported, j ∈ Job.distinct jobs
  pending : r.status = none → r.pending.Perm (r.queue.map (·.1) ++ r.unreported.map (·.id))
  complete : r.status = some .complete → r.pending = []

theorem accounts_start (jobs : List Job) : (start jobs).Accounts work jobs where
  submitted := rfl
  ids := .refl _
  entries := nofun
  queue := nofun
  unreported := by simp [start, Run.unreported]
  pending := by simp [start, Run.unreported]
  complete := nofun

namespace Accounts

theorem nodup (h : r.Accounts work jobs) : (r.entries.names ++ r.pending).Nodup :=
  h.ids.nodup_iff.2 (Job.nodup_ids_distinct jobs)

/-- Workers that move on without a report change nothing that is on the books. -/
theorem of_unreported_perm (h : r.Accounts work jobs) (hsub : r'.submitted = r.submitted)
    (hentries : r'.entries = r.entries) (hpending : r'.pending = r.pending)
    (hqueue : r'.queue = r.queue) (hstatus : r'.status = r.status)
    (hperm : r'.unreported.Perm r.unreported) : r'.Accounts work jobs where
  submitted := hsub.trans h.submitted
  ids := by rw [hentries, hpending]; exact h.ids
  entries := by rw [hentries]; exact h.entries
  queue := by rw [hqueue]; exact h.queue
  unreported := fun j hj => h.unreported j (hperm.mem_iff.1 hj)
  pending := by
    rw [hstatus, hpending, hqueue]
    exact fun ho => (h.pending ho).trans ((hperm.map _).append_left _).symm
  complete := by rw [hstatus, hpending]; exact h.complete

/-- Nothing is pending once all is received. -/
theorem pending_eq_nil (h : r.Accounts work jobs) (hopen : r.status = none) (hd : r.drained) :
    r.pending = [] := by
  simp only [drained, Bool.and_eq_true, List.isEmpty_iff] at hd
  have := h.pending hopen
  rw [hd.2, hd.1.1.1] at this
  exact this.eq_nil

theorem send (h : r.Accounts work jobs) {j : Job} {outcome : Outcome} (hj : j ∈ r.running)
    (hwork : work j = .done outcome) : Accounts work jobs { r with
      running := r.running.erase j
      reported := r.reported ++ [j]
      queue := if r.status.isNone then r.queue ++ [(j.id, outcome)] else r.queue } := by
  have hperm : r.unreported.Perm (j :: (r.idle ++ r.waiting ++ r.running.erase j)) :=
    ((List.perm_cons_erase hj).append_left _).trans List.perm_middle
  have hmem : j ∈ Job.distinct jobs := h.unreported j (hperm.mem_iff.2 List.mem_cons_self)
  refine ⟨h.submitted, h.ids, h.entries, fun p hp => ?_, fun i hi => ?_, fun ho => ?_, h.complete⟩
  · simp only at hp
    split at hp
    · rcases List.mem_append.1 hp with hp | hp
      · exact h.queue p hp
      · obtain rfl := List.mem_singleton.1 hp
        exact ⟨j, hmem, rfl, hwork⟩
    · exact h.queue p hp
  · exact h.unreported i (hperm.mem_iff.2 (List.mem_cons_of_mem _ hi))
  · replace ho : r.status = none := ho
    simp only [ho, Option.isNone_none, if_true, List.map_append, List.map_cons, List.map_nil,
      List.append_assoc, List.singleton_append]
    exact (h.pending ho).trans ((hperm.map _).append_left _)

theorem receive (h : r.Accounts work jobs) {id : String} {outcome : Outcome} {queue : List Report}
    (hopen : r.status = none) (hqueue : r.queue = (id, outcome) :: queue) : Accounts work jobs
      { r with queue, entries := r.entries.insert id outcome, pending := r.pending.erase id } := by
  have hpending := h.pending hopen
  rw [hqueue, List.map_cons, List.cons_append] at hpending
  have hid : id ∈ r.pending := hpending.mem_iff.2 List.mem_cons_self
  have hnew : id ∉ r.entries.names := fun hn => (List.nodup_append.1 h.nodup).2.2 id hn id hid rfl
  have herase := List.perm_cons_erase hid
  refine ⟨h.submitted, ?_, fun i o hi => ?_, fun p hp => h.queue p (by simp [hqueue, hp]), h.unreported,
    fun _ => (herase.symm.trans hpending).cons_inv, fun hc => ?_⟩
  · calc ((r.entries.insert id outcome).names ++ r.pending.erase id).Perm
          (id :: (r.entries.names ++ r.pending.erase id)) :=
        (NameMap.names_insert_perm hnew outcome).append_right _
      _ |>.Perm (r.entries.names ++ r.pending) :=
        List.perm_middle.symm.trans (herase.symm.append_left _)
      _ |>.Perm _ := h.ids
  · rw [NameMap.get?_insert] at hi
    split at hi
    · next he =>
      cases hi
      exact he ▸ h.queue (id, outcome) (by simp [hqueue])
    · exact h.entries i o hi
  · rw [show r.status = some .complete from hc] at hopen
    cases hopen

theorem stop (h : r.Accounts work jobs) {status : Status} (hopen : r.status = none)
    (hdrained : status = .complete → r.drained) : Accounts work jobs { r with status := some status } :=
  ⟨h.submitted, h.ids, h.entries, h.queue, h.unreported, nofun, fun hc =>
    h.pending_eq_nil hopen (hdrained (Option.some.inj hc))⟩

theorem change (h : r.Accounts work jobs) (hc : r.Change work cap e r') : r'.Accounts work jobs := by
  cases hc with
  | ask _ hj =>
    refine h.of_unreported_perm rfl rfl rfl rfl rfl ?_
    simpa [Run.unreported] using perm_moved hj r.waiting r.running
  | start _ hj =>
    refine h.of_unreported_perm rfl rfl rfl rfl rfl ?_
    simpa [Run.unreported] using perm_moved hj (r.waiting ++ r.running) []
  | @grant j waiting hj _ =>
    refine h.of_unreported_perm rfl rfl rfl rfl rfl (List.perm_iff_count.2 fun i => ?_)
    simp only [Run.unreported, hj, List.count_append, List.count_cons, List.count_nil]
    omega
  | send hj hwork => exact h.send hj hwork
  | release => exact h.of_unreported_perm rfl rfl rfl rfl rfl (.refl _)
  | leave => exact h.of_unreported_perm rfl rfl rfl rfl rfl (.refl _)
  | receive hopen hqueue => exact h.receive hopen hqueue
  | stop hopen hdrained => exact h.stop hopen hdrained

end Accounts

/-- Every state of a batch has its books in order. -/
theorem accounts_of_follow? (h : follow? work cap events (start jobs) = some r) :
    r.Accounts work jobs :=
  follow?_induction (motive := fun _ r => r.Accounts work jobs) (accounts_start jobs)
    (fun _ _ _ _ _ ih hc => ih.change hc) h

end Run
end SqlScript
