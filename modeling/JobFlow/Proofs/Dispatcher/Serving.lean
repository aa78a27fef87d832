import JobFlow.Proofs.Dispatcher.Ledger

/-!
Runs of a dispatcher whose hosts stay. Every lane is then served, and a dispatch is refused only once a
shutdown has begun, or when it comes from outside of any host and nothing was accepted for its entity before.
Main statement: in every such run each accepted event is served once and in order, by the handler that is then
responsible for its kind, and nothing that was refused leaves a trace.
-/

namespace JobFlow

variable {σ : Type}

namespace Dispatcher

variable {dispatcher : Dispatcher σ}

/-- Whatever is refused while every host is there is refused by a shutdown, or came from outside of any. -/
theorem refusal_of_gone (hgone : dispatcher.gone = []) {activity : Activity σ} {event : Event}
    {refusal : Refusal} (hmem : .answered event (.error refusal) ∈ dispatcher.observed activity) :
    refusal = .stopped ∧ dispatcher.stopped = true ∨
      refusal = .noRuntime ∧ activity = .dispatch event none := by
  cases activity with
  | dispatch sent caller =>
      have hanswer := answer_of_gone hgone sent caller
      rw [observed, List.mem_singleton, Observation.answered.injEq] at hmem
      obtain ⟨rfl, heq⟩ := hmem
      rw [← heq] at hanswer
      split at hanswer
      next hstopped =>
        cases hanswer
        exact Or.inl ⟨rfl, hstopped⟩
      next =>
        split at hanswer
        next hfirst =>
          cases hanswer
          exact Or.inr ⟨rfl, by rw [hfirst.2]⟩
        next => cases hanswer
  | deliver entity =>
      obtain ⟨host, _, _, heq, hstopped, haccepted⟩ := replies_of_mem_deliver hmem rfl
      cases heq
      cases hbegun : dispatcher.stopped with
      | true =>
          cases hstopped hbegun
          exact Or.inl ⟨rfl, rfl⟩
      | false => cases haccepted hbegun hgone (Option.some_ne_none host)
  | register | refuse | close | lose => cases hmem

/-! ### Whole runs -/

theorem exists_of_mem_along {β : Type} {note : Dispatcher σ → Activity σ → List β} {item : β}
    {activities : List (Activity σ)} (hmem : item ∈ dispatcher.along note activities) :
    ∃ before activity later, activities = before ++ activity :: later ∧
      item ∈ note (dispatcher.through before) activity := by
  induction activities generalizing dispatcher with
  | nil => cases hmem
  | cons first rest ih =>
      rcases List.mem_append.mp hmem with hfirst | hrest
      · exact ⟨[], first, rest, rfl, hfirst⟩
      · obtain ⟨before, activity, later, rfl, hitem⟩ := ih hrest
        exact ⟨first :: before, activity, later, rfl, hitem⟩

theorem gone_through (threshold : Nat) (state : σ) {activities : List (Activity σ)}
    (hhosts : ∀ host, .lose host ∉ activities) : ((create threshold state).through activities).gone = [] := by
  rw [List.eq_nil_iff_forall_not_mem]
  intro host hmem
  rcases (mem_gone_through _ activities host).mp hmem with hbefore | hlost
  · cases hbefore
  · exact hhosts host hlost

theorem along_lost (dispatcher : Dispatcher σ) {activities : List (Activity σ)}
    (hhosts : ∀ host, .lose host ∉ activities) : dispatcher.along lost activities = [] := by
  rw [List.eq_nil_iff_forall_not_mem]
  intro event hmem
  obtain ⟨before, activity, later, rfl, hevent⟩ := exists_of_mem_along hmem
  cases activity with
  | lose host => exact hhosts host (by simp)
  | register | dispatch | deliver | refuse | close => cases hevent

/-- As long as no host is lost, every accepted event is served once, in the order of its entity and by the
handler that is responsible for its kind at that time, or it still waits, and what is in flight is what
waits. A refused dispatch changes nothing; it was refused by a shutdown, or came from outside of any host
before anything was accepted for its entity. -/
theorem serves_accepted (threshold : Nat) (state : σ) {activities : List (Activity σ)}
    (hhosts : ∀ host, .lose host ∉ activities) :
    let start := create threshold state
    let reached := start.through activities
    let diary := start.diary activities
    let accepted := diary.filterMap Observation.accepted?
    let served := start.along Dispatcher.served activities
    activities.foldl observe (start.watched []) = reached.watched diary ∧
    (∀ entity, accepted.filter (·.entity = entity) =
      (served.map (·.1)).filter (·.entity = entity) ++ reached.queue entity) ∧
    diary.filterMap Observation.call? =
      served.flatMap (fun (event, handler) => handler.toList.map (·, event)) ∧
    reached.inFlight = reached.queued ∧
    (∀ event refusal, .answered event (.error refusal) ∈ diary →
      refusal = .stopped ∧ reached.stopped = true ∨
        refusal = .noRuntime ∧ .dispatch event none ∈ activities) ∧
    (reached.stopped = true ↔ .refuse ∈ activities) ∧
    (∀ event caller, (reached.dispatch event caller).2 =
      if reached.stopped = true then .error .stopped
      else if accepted.filter (·.entity = event.entity) = [] ∧ caller = none then .error .noRuntime
      else .ok ()) ∧
    (∀ event caller refusal, (reached.dispatch event caller).2 = .error refusal →
      (reached.dispatch event caller).1 = reached) ∧
    ∀ (dispatcher : Dispatcher σ) event caller refusal,
      (dispatcher.dispatch event caller).2 = .error refusal →
        (∀ entity, (dispatcher.dispatch event caller).1.queue entity = dispatcher.queue entity) ∧
        (dispatcher.dispatch event caller).1.inFlight = dispatcher.inFlight ∧
        ((∀ host ∈ caller, host ∉ dispatcher.gone) →
          (dispatcher.dispatch event caller).1 = dispatcher) := by
  intro start reached diary accepted served
  have hdiary : diary = start.along observed activities := start.diary_eq activities
  have hgone : reached.gone = [] := gone_through threshold state hhosts
  have hledger := (ledger_create threshold state).run activities
  rw [along_lost _ hhosts, List.nil_append, List.nil_append, List.append_nil, ← diary_eq] at hledger
  refine ⟨?_, fun entity => ?_, hledger.calls, hledger.inFlight, fun event refusal hmem => ?_, ?_,
    fun event caller => ?_,
    fun event caller refusal hrefused => (dispatch_of_refused hrefused).2.2 (by simp [hgone]),
    fun dispatcher event caller refusal => dispatch_of_refused⟩
  · rw [foldl_observe, List.nil_append, hdiary]
  · have hqueue := hledger.queue entity
    rw [List.filter_nil, List.append_nil] at hqueue
    exact hqueue
  · rw [hdiary] at hmem
    obtain ⟨before, activity, later, heq, hobserved⟩ := exists_of_mem_along hmem
    have hearlier : ∀ host, .lose host ∉ before :=
      fun host hlose => hhosts host (heq ▸ List.mem_append_left _ hlose)
    rcases refusal_of_gone (gone_through threshold state hearlier) hobserved with
      ⟨rfl, hstopped⟩ | ⟨rfl, rfl⟩
    · refine Or.inl ⟨rfl, ?_⟩
      show (start.through activities).stopped = true
      rw [heq, through_append, stopped_through]
      exact Or.inl hstopped
    · exact Or.inr ⟨rfl, heq ▸ List.mem_append_right _ List.mem_cons_self⟩
  · exact (start.stopped_through activities).trans ⟨fun h => h.resolve_left Bool.false_ne_true, Or.inr⟩
  · rw [answer_of_gone hgone]
    cases hstopped : reached.stopped with
    | true => rfl
    | false =>
        have hunknown : reached.lane? event.entity = none ↔
            accepted.filter (·.entity = event.entity) = [] :=
          host?_eq_none.symm.trans (hledger.unknown hstopped hgone event.entity)
        simp only [hunknown]

/-- A handler that has the job killed, counts its events, and breaks down when it is refused. -/
def killing : Handler Nat := fun count _ => .dispatch (.dag ⟨1⟩ .kill) fun
  | .ok () => .done (count + 1)
  | .error _ => .abort count

def breaking : Handler Nat := fun count _ => .abort count

/-- A run in which vertices get another handler on the way, and nobody handles what a job is told. -/
def busyRun : List (Activity Nat) :=
  [.register .vertex killing, .dispatch (.vertex ⟨0⟩ .init) (some ⟨0⟩),
    .dispatch (.vertex ⟨0⟩ .start) (some ⟨1⟩), .dispatch (.vertex ⟨1⟩ .init) none, .deliver (.vertex ⟨0⟩),
    .register .vertex breaking, .deliver (.vertex ⟨0⟩), .dispatch (.vertex ⟨0⟩ .kill) none,
    .deliver (.dag ⟨1⟩)]

/-- Two events of a vertex were served, each by the handler of its time, and a third waits. -/
theorem serves_accepted_busy : (∀ host, Activity.lose host ∉ busyRun) ∧
    (((create 1 0).diary busyRun).filterMap Observation.accepted?).filter
        (fun event => event.entity = .vertex ⟨0⟩) =
      [.vertex ⟨0⟩ .init, .vertex ⟨0⟩ .start] ++ [.vertex ⟨0⟩ .kill] ∧
    ((create 1 0).diary busyRun).filterMap Observation.call? =
      [(killing, .vertex ⟨0⟩ .init), (breaking, .vertex ⟨0⟩ .start)] ∧
    ((create 1 0).through busyRun).inFlight = 1 := by
  have hhosts : ∀ host, Activity.lose host ∉ busyRun := by simp [busyRun]
  obtain ⟨-, hqueue, hcalls, hinFlight, -⟩ := serves_accepted 1 0 hhosts
  exact ⟨hhosts, (hqueue (.vertex ⟨0⟩)).trans rfl, hcalls.trans rfl, hinFlight.trans rfl⟩

end Dispatcher

end JobFlow
