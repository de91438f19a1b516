import Mathlib.Data.List.Nodup
import SqlScript.Proofs.Batch.Run
import SqlScript.Vendor.Builtin

/-!
# Permits and jobs that never end

A cap on the jobs at a time is a number of permits, given out in the order they are asked for.
`Run.Permits` ties the jobs that got one to the order in which workers began: nobody gets ahead of
another, and a job with a permit is behind fewer jobs that never end than there are permits. So what
a batch has recorded once nothing can happen any more depends on the order of the jobs alone
(`records_at_rest`).
-/

namespace SqlScript

def Work.isEndless : Work → Bool
  | .endless => true
  | .done _ => false

namespace Run
variable {work : Job → Work} {cap : Option Nat} {jobs granted : List Job} {r r' : Run} {e : Event}
  {events : List Event}

/-- How the jobs `granted`, in the order they got their permits, stand among those whose workers have
begun. -/
structure Permits (work : Job → Work) (cap : Option Nat) (jobs : List Job) (events : List Event)
    (granted : List Job) (r : Run) : Prop where
  begun : events.filterMap Event.started? = granted ++ r.waiting
  perm : granted.Perm r.granted
  idle : (Job.distinct jobs).Perm (r.idle ++ events.filterMap Event.started?)
  waiting : cap = none → r.waiting = []
  reported : ∀ j ∈ r.reported ++ r.leaving ++ r.left, (work j).isEndless = false
  holders : ∀ n ∈ cap, r.holders.length ≤ n
  room : ∀ n ∈ cap, ∀ before j behind, granted = before ++ j :: behind →
    before.countP (work · |>.isEndless) < n

theorem begun_start (events : List Event) (j : Job) :
    (events ++ [Event.start j]).filterMap Event.started? = events.filterMap Event.started? ++ [j] := by
  simp [Event.started?]

namespace Permits

theorem start (jobs : List Job) : Permits work cap jobs [] [] (Run.start jobs) :=
  ⟨rfl, .refl _, by simp [Run.start], fun _ => rfl, nofun, fun n _ => Nat.zero_le n,
    fun _ _ before j behind h => by simp at h⟩

/-- Jobs that never end keep their permits. -/
theorem countP_granted (h : Permits work cap jobs events granted r) :
    granted.countP (work · |>.isEndless) = r.running.countP (work · |>.isEndless) := by
  have hzero : (r.reported ++ r.leaving ++ r.left).countP (work · |>.isEndless) = 0 :=
    List.countP_eq_zero.2 fun j hj => by simp [h.reported j hj]
  rw [h.perm.countP_eq, Run.granted, List.append_assoc, List.append_assoc, List.countP_append,
    ← List.append_assoc, hzero, Nat.add_zero]

/-- Events that neither begin a job nor give out a permit leave all in place. -/
theorem of_granted_perm (h : Permits work cap jobs events granted r) (he : e.started? = none)
    (hidle : r'.idle = r.idle) (hwaiting : r'.waiting = r.waiting) (hperm : r.granted.Perm r'.granted)
    (hreported : ∀ j ∈ r'.reported ++ r'.leaving ++ r'.left, (work j).isEndless = false)
    (hholders : r'.holders.length ≤ r.holders.length) :
    Permits work cap jobs (events ++ [e]) granted r' := by
  have hbegun : (events ++ [e]).filterMap Event.started? = events.filterMap Event.started? := by
    simp [he]
  refine ⟨?_, h.perm.trans hperm, ?_, ?_, hreported, fun n hn => ?_, h.room⟩
  · rw [hbegun, hwaiting, h.begun]
  · rw [hbegun, hidle]; exact h.idle
  · rw [hwaiting]; exact h.waiting
  · exact Nat.le_trans hholders (h.holders n hn)

theorem ask (h : Permits work cap jobs events granted r) {j : Job} (hcap : cap.isSome) (hj : j ∈ r.idle) :
    Permits work cap jobs (events ++ [.start j]) granted
      { r with idle := r.idle.erase j, waiting := r.waiting ++ [j] } := by
  have hbegun := begun_start events j
  refine ⟨?_, h.perm, ?_, ?_, h.reported, h.holders, h.room⟩
  · rw [hbegun, h.begun, List.append_assoc]
  · rw [hbegun]
    exact h.idle.trans (by simpa using (perm_moved hj (events.filterMap Event.started?) []).symm)
  · rintro rfl; cases hcap

theorem startFree (h : Permits work none jobs events granted r) {j : Job} (hj : j ∈ r.idle) :
    Permits work none jobs (events ++ [.start j]) (granted ++ [j])
      { r with idle := r.idle.erase j, running := r.running ++ [j] } := by
  have hbegun := begun_start events j
  refine ⟨?_, ?_, ?_, h.waiting, h.reported, nofun, nofun⟩
  · rw [hbegun, h.begun]
    simp [h.waiting rfl]
  · refine List.perm_iff_count.2 fun i => ?_
    have hperm := h.perm.count_eq i
    simp only [Run.granted, List.count_append, List.count_cons, List.count_nil] at hperm ⊢
    omega
  · rw [hbegun]
    exact h.idle.trans (by simpa using (perm_moved hj (events.filterMap Event.started?) []).symm)

theorem grant (h : Permits work cap jobs events granted r) {j : Job} {waiting : List Job}
    (hj : r.waiting = j :: waiting) (hpermit : r.hasPermit cap) :
    Permits work cap jobs (events ++ [.grant]) (granted ++ [j])
      { r with waiting, running := r.running ++ [j] } := by
  have hbegun : (events ++ [Event.grant]).filterMap Event.started? = events.filterMap Event.started? := by
    simp [Event.started?]
  have hfree : ∀ n ∈ cap, r.holders.length < n := by
    rintro n rfl
    simpa [hasPermit] using hpermit
  refine ⟨?_, ?_, ?_, fun hcap => ?_, h.reported, fun n hn => ?_, fun n hn before i behind heq => ?_⟩
  · rw [hbegun, h.begun, hj, List.append_assoc, List.singleton_append]
  · refine List.perm_iff_count.2 fun i => ?_
    have hperm := h.perm.count_eq i
    simp only [Run.granted, List.count_append, List.count_cons, List.count_nil] at hperm ⊢
    omega
  · rw [hbegun]; exact h.idle
  · rw [h.waiting hcap] at hj; cases hj
  · have := hfree n hn
    simp only [Run.holders, List.length_append, List.length_singleton] at this ⊢
    omega
  · rcases behind.eq_nil_or_concat' with rfl | ⟨behind, k, rfl⟩
    · -- the job that gets a permit now is behind all that have one for good
      obtain ⟨rfl, -⟩ := List.append_inj' heq rfl
      have hrun : r.running.countP (work · |>.isEndless) ≤ r.holders.length := by
        rw [Run.holders, List.length_append]
        exact Nat.le_trans List.countP_le_length (Nat.le_add_right _ _)
      have := hfree n hn
      rw [h.countP_granted]
      omega
    · have heq' : granted ++ [j] = (before ++ i :: behind) ++ [k] := by simpa using heq
      exact h.room n hn before i behind (List.append_inj_left' heq' rfl)

theorem change (h : Permits work cap jobs events granted r) (hc : r.Change work cap e r') :
    ∃ granted', Permits work cap jobs (events ++ [e]) granted' r' := by
  cases hc with
  | ask hcap hj => exact ⟨_, h.ask hcap hj⟩
  | start hcap hj => subst hcap; exact ⟨_, h.startFree hj⟩
  | grant hj hpermit => exact ⟨_, h.grant hj hpermit⟩
  | @send j outcome hj hwork =>
    refine ⟨_, h.of_granted_perm rfl rfl rfl ?_ (fun i hi => ?_) ?_⟩
    · simpa [Run.granted] using (perm_moved hj r.reported (r.leaving ++ r.left)).symm
    · simp only [List.mem_append, List.mem_singleton] at hi
      rcases hi with ((hi | rfl) | hi) | hi
      · exact h.reported i (by simp [hi])
      · simp [hwork, Work.isEndless]
      · exact h.reported i (by simp [hi])
      · exact h.reported i (by simp [hi])
    · have hlen := List.length_erase_add_one hj
      simp only [Run.holders, List.length_append, List.length_singleton]
      omega
  | @release j hj =>
    refine ⟨_, h.of_granted_perm rfl rfl rfl ?_ (fun i hi => ?_) ?_⟩
    · simpa [Run.granted] using ((perm_moved hj r.leaving r.left).append_left r.running).symm
    · simp only [List.mem_append, List.mem_singleton] at hi
      rcases hi with (hi | hi | rfl) | hi
      · exact h.reported i (by simp [List.mem_of_mem_erase hi])
      · exact h.reported i (by simp [hi])
      · exact h.reported i (by simp [hj])
      · exact h.reported i (by simp [hi])
    · simp only [Run.holders, List.length_append]
      exact Nat.add_le_add_left List.length_erase_le _
  | @leave j hj =>
    refine ⟨_, h.of_granted_perm rfl rfl rfl ?_ (fun i hi => ?_) (Nat.le_refl _)⟩
    · simpa [Run.granted] using ((perm_moved hj r.left []).append_left (r.running ++ r.reported)).symm
    · simp only [List.mem_append, List.mem_singleton] at hi
      rcases hi with (hi | hi) | hi | rfl
      · exact h.reported i (by simp [hi])
      · exact h.reported i (by simp [List.mem_of_mem_erase hi])
      · exact h.reported i (by simp [hi])
      · exact h.reported i (by simp [hj])
  | receive => exact ⟨_, h.of_granted_perm rfl rfl rfl (.refl _) h.reported (Nat.le_refl _)⟩
  | stop => exact ⟨_, h.of_granted_perm rfl rfl rfl (.refl _) h.reported (Nat.le_refl _)⟩

end Permits

theorem exists_permits (h : follow? work cap events (start jobs) = some r) :
    ∃ granted, Permits work cap jobs events granted r :=
  follow?_induction (motive := fun events r => ∃ granted, Permits work cap jobs events granted r)
    ⟨[], Permits.start jobs⟩ (fun _ _ _ _ _ ⟨_, ih⟩ hc => ih.change hc) h

/-- What a run looks like in which no worker can go on and nothing can be received. -/
theorem AtRest.stages (h : r.AtRest work cap) (hopen : r.status = none) :
    r.idle = [] ∧ r.reported = [] ∧ r.leaving = [] ∧ r.queue = [] ∧
      (∀ j ∈ r.running, (work j).isEndless) ∧ (r.waiting = [] ∨ r.hasPermit cap = false) := by
  refine ⟨?_, ?_, ?_, ?_, fun j hj => ?_, ?_⟩
  · refine List.eq_nil_iff_forall_not_mem.2 fun j hj => ?_
    have := h (.start j) (by simp)
    by_cases hcap : cap.isSome <;> simp [after?, hj, hcap] at this
  · refine List.eq_nil_iff_forall_not_mem.2 fun j hj => ?_
    simpa [after?, hj] using h (.release j) (by simp)
  · refine List.eq_nil_iff_forall_not_mem.2 fun j hj => ?_
    simpa [after?, hj] using h (.leave j) (by simp)
  · have := h .receive (by simp)
    cases hq : r.queue with
    | nil => rfl
    | cons p queue => simp [after?, hopen, hq] at this
  · have := h (.send j) (by simp)
    cases hw : work j with
    | endless => rfl
    | done outcome => simp [after?, hj, hw] at this
  · have := h .grant (by simp)
    cases hw : r.waiting with
    | nil => exact .inl rfl
    | cons j waiting => simpa [after?, hw] using this

/-- Nothing is possible if none of the candidates is. -/
theorem atRest_of_next? (h : r.next? work cap = none) : r.AtRest work cap := by
  have hnone : ∀ e ∈ r.candidates, r.after? work cap e = none := List.findSome?_eq_none_iff.1 h
  intro e he
  cases e with
  | start j =>
    cases hidle : r.idle with
    | nil => simp [after?, hidle]
    | cons i rest =>
      have := hnone (.start i) (by simp [candidates, hidle])
      by_cases hcap : cap.isSome <;> simp [after?, hidle, hcap] at this
  | grant => exact hnone _ (by simp [candidates])
  | send j =>
    by_cases hj : j ∈ r.running
    · exact hnone _ (by simp [candidates, hj])
    · simp [after?, hj]
  | release j =>
    by_cases hj : j ∈ r.reported
    · exact hnone _ (by simp [candidates, hj])
    · simp [after?, hj]
  | leave j =>
    by_cases hj : j ∈ r.leaving
    · exact hnone _ (by simp [candidates, hj])
    · simp [after?, hj]
  | receive => exact hnone _ (by simp [candidates])
  | stop status => exact absurd rfl (he status)

namespace Permits

/-- If workers ask for permits in the order of the jobs, they get them in that order. -/
theorem distinct_eq (h : Permits work cap jobs events granted r) (hidle : r.idle = [])
    (horder : events.filterMap Event.started? <+: Job.distinct jobs) :
    Job.distinct jobs = granted ++ r.waiting := by
  have hlen := h.idle.length_eq
  rw [hidle, List.nil_append] at hlen
  rw [← h.begun, horder.eq_of_length hlen.symm]

theorem isEndless_of_mem_left (h : Permits work cap jobs events granted r) {j : Job} (hj : j ∈ r.left) :
    (work j).isEndless = false :=
  h.reported j (by simp [hj])

/-- In a state of rest the workers that have left are those that are not behind as many jobs that never
end as there are permits. -/
theorem mem_left_iff (h : Permits work cap jobs events granted r) (hopen : r.status = none)
    (hrest : r.AtRest work cap)
    (horder : cap.isSome → events.filterMap Event.started? <+: Job.distinct jobs) {j : Job} :
    j ∈ r.left ↔ (work j).isEndless = false ∧ ∃ before behind,
      Job.distinct jobs = before ++ j :: behind ∧ ∀ n ∈ cap, before.countP (work · |>.isEndless) < n := by
  obtain ⟨hidle, hreported, hleaving, -, hendless, hwaiting⟩ := hrest.stages hopen
  have hgranted : ∀ i, i ∈ granted ↔ i ∈ r.running ∨ i ∈ r.left := fun i => by
    rw [h.perm.mem_iff, Run.granted, hreported, hleaving]
    simp
  have hdistinct : ∀ i, i ∈ Job.distinct jobs ↔ i ∈ granted ∨ i ∈ r.waiting := fun i => by
    rw [h.idle.mem_iff, hidle, h.begun]
    simp
  -- a job that ends and has a permit has left
  have hleft : j ∈ granted → (work j).isEndless = false → j ∈ r.left := fun hj hends =>
    ((hgranted j).1 hj).resolve_left fun hrun => by simp [hendless j hrun] at hends
  constructor
  · intro hj
    have hmem : j ∈ granted := (hgranted j).2 (.inr hj)
    refine ⟨h.isEndless_of_mem_left hj, ?_⟩
    cases hcap : cap with
    | none =>
      obtain ⟨before, behind, heq⟩ := List.append_of_mem ((hdistinct j).2 (.inl hmem))
      exact ⟨before, behind, heq, nofun⟩
    | some n =>
      obtain ⟨before, behind, rfl⟩ := List.append_of_mem hmem
      refine ⟨before, behind ++ r.waiting, ?_, fun m hm => ?_⟩
      · simpa using h.distinct_eq hidle (horder (by simp [hcap]))
      · exact h.room m (hcap ▸ hm) before j behind rfl
  · rintro ⟨hends, before, behind, heq, hroom⟩
    refine ((hdistinct j).1 (by simp [heq])).elim (hleft · hends) fun hj => ?_
    cases hcap : cap with
    | none => simp [h.waiting hcap] at hj
    | some n =>
      -- all that have a permit are ahead of a job that waits, and none is left
      have hfull : n ≤ granted.countP (work · |>.isEndless) := by
        have hpermit := hwaiting.resolve_left (List.ne_nil_of_mem hj)
        have hcount : r.running.countP (work · |>.isEndless) = r.running.length :=
          List.countP_eq_length.2 hendless
        rw [h.countP_granted, hcount]
        simpa [hasPermit, hcap, Run.holders, hreported] using hpermit
      have hahead : granted <+: before := by
        have hnodup : (granted ++ r.waiting).Nodup :=
          h.distinct_eq hidle (horder (by simp [hcap])) ▸ List.Nodup.of_map _ (Job.nodup_ids_distinct jobs)
        have hnew : j ∉ granted := fun hg => (List.nodup_append.1 hnodup).2.2 j hg j hj rfl
        rw [h.distinct_eq hidle (horder (by simp [hcap]))] at heq
        rcases List.append_eq_append_iff.1 heq with ⟨c, rfl, -⟩ | ⟨c, rfl, hc⟩
        · exact List.prefix_append _ _
        · cases c with
          | nil => simp
          | cons i c =>
            obtain ⟨rfl, -⟩ := List.cons.inj hc
            exact absurd (by simp) hnew
      have := hroom n hcap
      have := hahead.sublist.countP_le (p := (work · |>.isEndless))
      omega

end Permits

/-- In a state of rest the jobs on record are those whose workers have left. -/
theorem Permits.names_perm (h : Permits work cap jobs events granted r) (haccounts : r.Accounts work jobs)
    (hopen : r.status = none) (hrest : r.AtRest work cap) :
    r.entries.names.Perm (r.left.map (·.id)) := by
  obtain ⟨hidle, hreported, hleaving, hqueue, -, -⟩ := hrest.stages hopen
  have hdistinct : (Job.distinct jobs).Perm (r.left ++ (r.waiting ++ r.running)) := by
    refine h.idle.trans (List.perm_iff_count.2 fun i => ?_)
    have := h.perm.count_eq i
    simp only [Run.granted, hidle, hreported, hleaving, h.begun, List.count_append,
      List.count_nil] at this ⊢
    omega
  have hpending : r.pending.Perm ((r.waiting ++ r.running).map (·.id)) := by
    simpa [Run.unreported, hqueue, hidle] using haccounts.pending hopen
  have hall : (r.entries.names ++ r.pending).Perm (r.left.map (·.id) ++ r.pending) :=
    calc (r.entries.names ++ r.pending).Perm ((Job.distinct jobs).map (·.id)) := haccounts.ids
      _ |>.Perm (r.left.map (·.id) ++ (r.waiting ++ r.running).map (·.id)) := by
        simpa using hdistinct.map (·.id)
      _ |>.Perm (r.left.map (·.id) ++ r.pending) := hpending.symm.append_left _
  exact (List.perm_append_right_iff _).1 hall

/-- In a state of rest the jobs on record are those that end and are not behind as many jobs that never
end as there are permits. -/
theorem Permits.mem_names_iff (h : Permits work cap jobs events granted r)
    (haccounts : r.Accounts work jobs) (hopen : r.status = none) (hrest : r.AtRest work cap)
    (horder : cap.isSome → events.filterMap Event.started? <+: Job.distinct jobs) {id : String} :
    id ∈ r.entries.names ↔ ∃ before j behind, Job.distinct jobs = before ++ j :: behind ∧ j.id = id ∧
      (work j).isEndless = false ∧ ∀ n ∈ cap, before.countP (work · |>.isEndless) < n := by
  rw [(h.names_perm haccounts hopen hrest).mem_iff, List.mem_map]
  constructor
  · rintro ⟨j, hj, rfl⟩
    obtain ⟨hends, before, behind, heq, hroom⟩ := (h.mem_left_iff hopen hrest horder).1 hj
    exact ⟨before, j, behind, heq, rfl, hends, hroom⟩
  · rintro ⟨before, j, behind, heq, rfl, hends, hroom⟩
    exact ⟨j, (h.mem_left_iff hopen hrest horder).2 ⟨hends, before, behind, heq, hroom⟩, rfl⟩

/-- However the workers interleave: at most as many jobs as there are permits hold one, the jobs that
got one are the first ones, and at rest the jobs on record are those that end and are behind fewer jobs
that never end than there are permits. All others are pending. -/
theorem records_at_rest (h : follow? work cap events (start jobs) = some r)
    (horder : cap.isSome → events.filterMap Event.started? <+: Job.distinct jobs) :
    (∀ n ∈ cap, r.holders.length ≤ n ∧
        ∃ granted, granted <+: Job.distinct jobs ∧ granted.Perm r.granted) ∧
      (r.status = none → r.AtRest work cap →
        (∀ id, id ∈ r.entries.names ↔ ∃ before j behind, Job.distinct jobs = before ++ j :: behind ∧
          j.id = id ∧ (work j).isEndless = false ∧
          ∀ n ∈ cap, before.countP (work · |>.isEndless) < n) ∧
        ∀ id, id ∈ r.pending ↔ id ∈ (Job.distinct jobs).map (·.id) ∧ id ∉ r.entries.names) := by
  obtain ⟨granted, hpermits⟩ := exists_permits h
  have haccounts := accounts_of_follow? h
  refine ⟨fun n hn => ⟨hpermits.holders n hn, granted, ?_, hpermits.perm⟩, fun hopen hrest =>
    ⟨fun _ => hpermits.mem_names_iff haccounts hopen hrest horder, fun id => ?_⟩⟩
  · have := horder (by simp [Option.mem_def.1 hn])
    rw [hpermits.begun] at this
    exact (List.prefix_append _ _).trans this
  · rw [← haccounts.ids.mem_iff, List.mem_append]
    exact ⟨fun hid => ⟨.inr hid, fun hn => (List.nodup_append.1 haccounts.nodup).2.2 id hn id hid rfl⟩,
      fun hid => hid.1.resolve_left hid.2⟩

/-- With one permit, a job behind one that never ends waits for good. -/
theorem records_at_rest_behind_endless :
    let reaction (text : List Char) : Reaction := if text.head? = some '!' then .hangs else .answers
    let work := Job.workWith oracle reaction (fun _ => "") fun _ => .endless
    let a : Job := .ofText "a" "x;"
    let b : Job := .ofText "b" "!"
    let c : Job := .ofText "c" "y"
    let events : List Event := [.start a, .grant, .start b, .send a, .start c, .release a, .grant,
      .receive, .leave a]
    ∃ r, follow? work (some 1) events (start [a, b, c]) = some r ∧ r.status = none ∧
      r.AtRest work (some 1) ∧ r.holders.length ≤ 1 ∧
      (∀ id, id ∈ r.entries.names ↔ ∃ before j behind, Job.distinct [a, b, c] = before ++ j :: behind ∧
        j.id = id ∧ (work j).isEndless = false ∧
        ∀ n ∈ some 1, before.countP (work · |>.isEndless) < n) ∧
      r.entries.names = ["a"] ∧ r.pending = ["b", "c"] := by
  intro reaction work a b c events
  have hrun : (follow? work (some 1) events (start [a, b, c])).map (fun r =>
      (r.entries.names, r.pending, r.status, (r.next? work (some 1)).isNone)) =
        some (["a"], ["b", "c"], none, true) := by decide +kernel
  have horder : (some 1).isSome → events.filterMap Event.started? <+: Job.distinct [a, b, c] := fun _ =>
    ⟨[], by decide +kernel⟩
  obtain ⟨r, hr, heq⟩ := Option.map_eq_some_iff.1 hrun
  simp only [Prod.mk.injEq, Option.isNone_iff_eq_none] at heq
  obtain ⟨hnames, hpending, hopen, hnext⟩ := heq
  obtain ⟨hcap, hrest⟩ := records_at_rest hr horder
  exact ⟨r, hr, hopen, atRest_of_next? hnext, (hcap 1 rfl).1, (hrest hopen (atRest_of_next? hnext)).1,
    hnames, hpending⟩

end Run
end SqlScript
