import JobFlow.Proofs.Dag.Steps

/-!
How a job counts the end of a vertex. Main statement: every step of a job is lawful.
-/

namespace JobFlow.Dag

/-- A job with the ending of a vertex entered into the tallies. -/
def enter (dag : Dag) (vertex : VertexId) (tally : Tally) (phase : Phase) : Dag :=
  { dag with tallies := dag.tallies.set vertex.index { tally with completed := some phase } }

theorem Valid.untold {dag : Dag} (hvalid : dag.Valid)
    (hlive : dag.phase = .running ∨ dag.phase = .killWait) : dag.ownerTold = false := by
  rw [hvalid.ownerTold]
  rcases hlive with h | h <;> rw [h] <;> rfl

section Enter

variable {dag : Dag} {vertex : VertexId} {tally : Tally} (htally : dag.tally? vertex = some tally)
  (hnone : tally.completed = none) (phase : Phase)

include htally

theorem tally?_enter (other : VertexId) : (dag.enter vertex tally phase).tally? other =
    if other = vertex then some { tally with completed := some phase } else dag.tally? other := by
  obtain ⟨hindex, -⟩ := List.getElem?_eq_some_iff.mp htally
  unfold enter tally?
  by_cases h : other = vertex
  · subst h
    simp [List.getElem?_set_self hindex]
  · have hne : vertex.index ≠ other.index := by
      intro heq
      exact h (congrArg VertexId.mk heq.symm)
    simp [List.getElem?_set_ne hne, h]

theorem asked_enter (other : VertexId) :
    (dag.enter vertex tally phase).asked other = dag.asked other := by
  unfold asked
  rw [tally?_enter htally]
  by_cases h : other = vertex
  · subst h
    rw [if_pos rfl, htally]
    rfl
  · rw [if_neg h]

theorem ending?_enter (other : VertexId) : (dag.enter vertex tally phase).ending? other =
    if other = vertex then some phase else dag.ending? other := by
  rw [ending?, tally?_enter htally]
  split <;> rfl

omit htally in
theorem vertexCount_enter : (dag.enter vertex tally phase).vertexCount = dag.vertexCount :=
  List.length_set

omit htally in
theorem endings_enter :
    (dag.enter vertex tally phase).endings = dag.endings.set vertex.index (some phase) := by
  unfold endings enter
  rw [List.map_set]

include hnone

theorem ending?_eq_none_of_tally : dag.ending? vertex = none := by
  rw [ending?, htally]
  exact hnone

theorem count_endings_enter (counted : Phase) :
    (dag.enter vertex tally phase).endings.count (some counted) =
      dag.endings.count (some counted) + if phase = counted then 1 else 0 := by
  obtain ⟨hindex, -⟩ := List.getElem?_eq_some_iff.mp htally
  have hold := (ending?_eq_none_iff hindex).mp (ending?_eq_none_of_tally htally hnone)
  obtain ⟨hlt, hget⟩ := List.getElem?_eq_some_iff.mp hold
  rw [endings_enter, List.count_set hlt, hget]
  simp

theorem follows_enter : dag.Follows (dag.enter vertex tally phase) where
  id := rfl
  vertexCount := vertexCount_enter phase
  ending := by
    intro other counted hcounted
    have hother : other ≠ vertex := by
      intro heq
      rw [heq, ending?_eq_none_of_tally htally hnone] at hcounted
      cases hcounted
    rw [ending?_enter htally, if_neg hother, hcounted]
  asked other h := by rw [asked_enter htally, h]
  erred h := h
  new h := h
  inited h := Or.inr h
  running h := Or.inr h
  started h := Or.inl h

/-- The counter of the ending goes up by one. -/
theorem counted_enter (hcounted : dag.Counted) (hterminal : phase.isTerminal = true)
    {succeeded failed killed : Nat}
    (hsucceeded : succeeded = dag.succeeded + if phase = .succeeded then 1 else 0)
    (hfailed : failed = dag.failed + if phase = .failed ∨ phase = .error then 1 else 0)
    (hkilled : killed = dag.killed + if phase = .killed then 1 else 0) (cause : Cause)
    (diagnostics : List DagDiagnostic) :
    Counted { dag.enter vertex tally phase with
      succeeded := succeeded, failed := failed, killed := killed, cause := cause,
      diagnostics := diagnostics } := by
  have hcount := count_endings_enter htally hnone phase
  refine ⟨?_, ?_, ?_, ?_, ?_⟩
  · intro hnil
    have hlength := congrArg List.length hnil
    rw [enter, List.length_set] at hlength
    exact hcounted.nonempty (List.length_eq_zero_iff.mp hlength)
  · exact hsucceeded.trans (by rw [hcounted.succeeded]; exact (hcount .succeeded).symm)
  · have hboth : (dag.enter vertex tally phase).endings.count (some .failed) +
        (dag.enter vertex tally phase).endings.count (some .error) = failed := by
      rw [hcount, hcount, hfailed, hcounted.failed]
      cases phase <;> simp <;> omega
    exact hboth.symm
  · exact hkilled.trans (by rw [hcounted.killed]; exact (hcount .killed).symm)
  · intro counted hmem
    have hmem : some counted ∈ (dag.enter vertex tally phase).endings := hmem
    rw [endings_enter] at hmem
    rcases List.mem_or_eq_of_mem_set hmem with hold | hnew
    · exact hcounted.terminal counted hold
    · cases hnew
      exact hterminal

omit htally hnone in
theorem mem_endings_enter {ending : Option Phase}
    (hmem : ending ∈ (dag.enter vertex tally phase).endings) :
    ending ∈ dag.endings ∨ ending = some phase := by
  rw [endings_enter] at hmem
  exact List.mem_or_eq_of_mem_set hmem

omit htally hnone in
theorem unerred_enter (hunerred : some .error ∉ dag.endings) (herror : phase ≠ .error) :
    some .error ∉ (dag.enter vertex tally phase).endings := by
  intro hmem
  rcases mem_endings_enter phase hmem with hold | hnew
  · exact hunerred hold
  · exact herror (Option.some.inj hnew).symm

omit hnone in
theorem ending?_of_enter {other : VertexId}
    (hending : (dag.enter vertex tally phase).ending? other = none) : dag.ending? other = none := by
  rw [ending?_enter htally] at hending
  split at hending
  · cases hending
  · exact hending

/-- Once the ending is entered, and the cause adopted if it gives one, a live job has to wind up. -/
theorem due_enter (hvalid : dag.Valid) (hlive : dag.phase = .running ∨ dag.phase = .killWait)
    (hterminal : phase.isTerminal = true) (herror : phase ≠ .error) {succeeded failed killed : Nat}
    (hsucceeded : succeeded = dag.succeeded + if phase = .succeeded then 1 else 0)
    (hfailed : failed = dag.failed + if phase = .failed ∨ phase = .error then 1 else 0)
    (hkilled : killed = dag.killed + if phase = .killed then 1 else 0) {cause : Cause}
    {diagnostics : List DagDiagnostic} {fresh : Bool}
    (hkept : dag.cause ≠ .none → cause = dag.cause)
    (hadopted : dag.cause = .none → cause = .vertexFailure ∧ fresh = true ∨
      cause = .none ∧ fresh = false ∧ phase = .succeeded ∧ diagnostics = dag.diagnostics) :
    Due { dag.enter vertex tally phase with
      succeeded := succeeded, failed := failed, killed := killed, cause := cause,
      diagnostics := diagnostics } fresh := by
  have hunerred : dag.phase ≠ .error := by rcases hlive with h | h <;> simp [h]
  have hcounted := counted_enter htally hnone phase hvalid.toCounted hterminal hsucceeded hfailed
    hkilled cause diagnostics
  have hasked := asked_enter htally phase
  by_cases hcause : dag.cause = .none
  · have hunhurt := hvalid.unhurt hcause hunerred
    have hcases := hadopted hcause
    exact {
      toCounted := hcounted
      live := hlive
      running := fun _ huser => by
        rcases hcases with ⟨h, -⟩ | ⟨h, -⟩ <;> rw [h] at huser <;> cases huser
      killWait := fun h => absurd hcause (hvalid.killWait h)
      unhurt := by
        intro hnoCause
        rcases hcases with ⟨h, -⟩ | ⟨-, -, hphase, hclean⟩
        · rw [h] at hnoCause
          cases hnoCause
        · refine ⟨fun other => (hasked other).trans (hunhurt.1 other), ?_, hclean.trans hunhurt.2.2⟩
          intro ending hmem
          rcases mem_endings_enter phase hmem with hold | hnew
          · exact hunhurt.2.1 ending hold
          · exact Or.inr (by rw [hnew, hphase])
      hurt := by
        intro hfresh hset
        rcases hcases with ⟨-, h⟩ | ⟨h, -⟩
        · rw [h] at hfresh
          cases hfresh
        · exact absurd h hset
      unerred := unerred_enter phase (hvalid.unerred hunerred) herror
      untold := hvalid.untold hlive }
  · have hsame := hkept hcause
    exact {
      toCounted := hcounted
      live := hlive
      running := fun h => by rw [hsame]; exact hvalid.running h
      killWait := fun _ => by rw [hsame]; exact hcause
      unhurt := fun h => absurd (hsame.symm.trans h) hcause
      hurt := by
        intro _ _ other hindex hending
        have hindex : other.index < dag.vertexCount := by rwa [← vertexCount_enter phase]
        have hother := ending?_of_enter htally phase hending
        exact (hasked other).trans (hvalid.hurt hcause other hindex hother)
      unerred := unerred_enter phase (hvalid.unerred hunerred) herror
      untold := hvalid.untold hlive }

end Enter

/-! ### Steps -/

theorem blame_kept {cause later : Cause} (h : cause ≠ .none) : cause.orElse later = cause := by
  rw [Cause.orElse, if_pos (Cause.isSet_iff.mpr h)]

theorem adopted_vertexFailure {cause : Cause} (h : cause = .none) :
    cause.orElse .vertexFailure = .vertexFailure ∧ cause.accepts .vertexFailure = true := by
  subst h
  exact ⟨rfl, rfl⟩

theorem lawful_account {dag : Dag} (hvalid : dag.Valid)
    (hlive : dag.phase = .running ∨ dag.phase = .killWait) {vertex : VertexId} {tally : Tally}
    (htally : dag.tally? vertex = some tally) (hnone : tally.completed = none) {phase : Phase}
    (hterminal : phase.isTerminal = true) : Lawful dag (dag.account vertex tally phase) := by
  have hnew : dag.phase ≠ .new := by rcases hlive with h | h <;> simp [h]
  have hending := ending?_eq_none_of_tally htally hnone
  have hindex : vertex.index < dag.vertexCount := (List.getElem?_eq_some_iff.mp htally).1
  have hfollows : ∀ (succeeded failed killed : Nat) (cause : Cause)
      (diagnostics : List DagDiagnostic), dag.Follows { dag.enter vertex tally phase with
        succeeded := succeeded, failed := failed, killed := killed, cause := cause,
        diagnostics := diagnostics } := by
    intro succeeded failed killed cause diagnostics
    have h := follows_enter htally hnone phase
    exact ⟨h.id, h.vertexCount, h.ending, h.asked, h.erred, h.new, h.inited, h.running, h.started⟩
  have hasked := asked_enter htally phase
  unfold account
  cases phase with
  | succeeded =>
      refine (lawful_windUp (due_enter htally hnone .succeeded hvalid hlive rfl (by decide) rfl rfl rfl
        (fun _ => rfl) ?_)).of_follows (hfollows _ _ _ _ _) hasked rfl hnew (Or.inl rfl)
      exact fun hcause => Or.inr ⟨hcause, rfl, rfl, rfl⟩
  | failed =>
      refine (lawful_windUp (due_enter htally hnone .failed hvalid hlive rfl (by decide) rfl rfl rfl
        blame_kept ?_)).of_follows (hfollows _ _ _ _ _) hasked rfl hnew (Or.inl rfl)
      exact fun hcause => Or.inl (adopted_vertexFailure hcause)
  | killed =>
      dsimp only
      split
      next hrequested =>
        refine (lawful_windUp (due_enter htally hnone .killed hvalid hlive rfl (by decide) rfl rfl rfl
          (fun _ => rfl) ?_)).of_follows (hfollows _ _ _ _ _) hasked rfl hnew (Or.inl rfl)
        -- A job without a cause told nobody to die.
        intro hcause
        have hunasked := (hvalid.unhurt hcause (by rcases hlive with h | h <;> simp [h])).1 vertex
        unfold asked at hunasked
        rw [htally, Option.any_some, hrequested] at hunasked
        cases hunasked
      next =>
        refine (lawful_windUp (due_enter htally hnone .killed hvalid hlive rfl (by decide) rfl rfl rfl
          blame_kept ?_)).of_follows (hfollows _ _ _ _ _) hasked rfl hnew (Or.inl rfl)
        exact fun hcause => Or.inl (adopted_vertexFailure hcause)
  | error =>
      have hcounted : Counted { dag.enter vertex tally .error with
          failed := dag.failed + 1
          diagnostics := dag.diagnostics ++ [.vertexErred (dag.vertexName vertex)] } :=
        counted_enter htally hnone .error hvalid.toCounted rfl rfl rfl rfl dag.cause _
      have hend := (lawful_endInError hcounted (fun h => absurd hlive h)).of_follows
        (hfollows _ _ _ _ _) hasked rfl hnew (Or.inl rfl)
      exact ⟨hend.valid, hend.follows, hend.outbound, fun _ _ _ => rfl⟩
  | new | inited | running | killWait => cases hterminal

theorem lawful_rest {dag : Dag} (hvalid : dag.Valid) : Lawful dag (.rest dag) := by
  refine ⟨hvalid, ?_, ?_, ?_⟩
  · exact Follows.of_books rfl rfl (fun h => h) (Or.inl rfl)
  · have hnew : ¬ (dag.phase = .new ∧ dag.phase = .inited) := fun h => by simp [h.1] at h
    have hinited : ¬ (dag.phase = .inited ∧ dag.phase = .running) := fun h => by simp [h.1] at h
    simp [announcements, newlyAsked, hnew, hinited]
  · intro notice hnotice
    cases hnotice

theorem lawful_vertexOver {dag : Dag} (hvalid : dag.Valid)
    (hlive : dag.phase = .running ∨ dag.phase = .killWait) (vertex : VertexId) (phase : Phase) :
    Lawful dag (dag.vertexOver vertex phase) := by
  rw [vertexOver]
  split
  next => exact lawful_violate hvalid _
  next hterminal =>
    cases htally : dag.tally? vertex with
    | none => exact lawful_violate hvalid _
    | some tally =>
        dsimp only
        cases hcompleted : tally.completed with
        | none =>
            simp only [Tally.isCounted, hcompleted]
            exact lawful_account hvalid hlive htally hcompleted (Decidable.of_not_not hterminal)
        | some counted =>
            simp only [Tally.isCounted, hcompleted]
            exact lawful_rest hvalid

/-- A job whose books are empty may move on to the next phase. -/
theorem valid_advance {dag : Dag} (hvalid : dag.Valid) (hfresh : dag.phase = .new ∨ dag.phase = .inited)
    {phase : Phase} (hphase : phase = .inited ∨ phase = .running) :
    Valid { dag with phase := phase } := by
  obtain ⟨hcause, hnone⟩ := hvalid.fresh hfresh
  have hunerred : dag.phase ≠ .error := by rcases hfresh with h | h <;> simp [h]
  have huntold : dag.ownerTold = false := by
    rw [hvalid.ownerTold]
    rcases hfresh with h | h <;> rw [h] <;> rfl
  obtain ⟨ending, hending⟩ := List.exists_mem_of_ne_nil dag.endings (by
    intro hnil
    exact hvalid.nonempty (List.map_eq_nil_iff.mp hnil))
  exact {
    toCounted := hvalid.toCounted.of_eq rfl rfl rfl rfl
    fresh := fun _ => ⟨hcause, hnone⟩
    alive := fun _ => hnone ending hending ▸ hending
    running := by simp [hcause]
    killWait := by rcases hphase with rfl | rfl <;> simp
    ended := by rcases hphase with rfl | rfl <;> simp
    unhurt := fun _ _ => hvalid.unhurt hcause hunerred
    hurt := fun h => absurd hcause h
    unerred := fun _ => hvalid.unerred hunerred
    ownerTold := by rcases hphase with rfl | rfl <;> exact huntold }

theorem lawful_handleInit {dag : Dag} (hvalid : dag.Valid) : Lawful dag dag.handleInit := by
  rw [handleInit]
  cases hphase : dag.phase with
  | new =>
      refine ⟨valid_advance hvalid (Or.inl hphase) (Or.inl rfl), ?_, ?_, ?_⟩
      · exact {
          id := rfl
          vertexCount := rfl
          ending := fun _ _ h => h
          asked := fun _ h => h
          erred := by simp [hphase]
          new := by simp
          inited := fun _ => Or.inl hphase
          running := by simp
          started := fun _ => Or.inr (Or.inl rfl) }
      · simp [announcements, newlyAsked, hphase, asked, tally?]
      · intro notice hnotice
        cases hnotice
  | error => exact lawful_rest hvalid
  | inited | running | killWait | succeeded | failed | killed => exact lawful_violate hvalid _

theorem lawful_handleStart {dag : Dag} (hvalid : dag.Valid) : Lawful dag dag.handleStart := by
  rw [handleStart]
  cases hphase : dag.phase with
  | inited =>
      refine ⟨valid_advance hvalid (Or.inr hphase) (Or.inr rfl), ?_, ?_, ?_⟩
      · exact {
          id := rfl
          vertexCount := rfl
          ending := fun _ _ h => h
          asked := fun _ h => h
          erred := by simp [hphase]
          new := by simp
          inited := by simp
          running := fun _ => Or.inl hphase
          started := by simp [hphase] }
      · simp [announcements, newlyAsked, hphase, asked, tally?]
      · intro notice hnotice
        cases hnotice
  | error => exact lawful_rest hvalid
  | new | running | killWait | succeeded | failed | killed => exact lawful_violate hvalid _

/-- Every step of a job is lawful. -/
theorem lawful_handle {dag : Dag} (hvalid : dag.Valid) (signal : DagSignal) :
    Lawful dag (dag.handle signal) := by
  cases signal with
  | init => exact lawful_handleInit hvalid
  | start => exact lawful_handleStart hvalid
  | kill =>
      change Lawful dag dag.handleKill
      rw [handleKill]
      cases hphase : dag.phase with
      | inited => exact lawful_killByUser hvalid (Or.inl hphase)
      | running => exact lawful_killByUser hvalid (Or.inr hphase)
      | killWait | succeeded | failed | killed | error => exact lawful_rest hvalid
      | new => exact lawful_violate hvalid _
  | vertexCompleted vertex phase =>
      change Lawful dag (dag.handleVertexCompleted vertex phase)
      rw [handleVertexCompleted]
      cases hphase : dag.phase with
      | running => exact lawful_vertexOver hvalid (Or.inl hphase) vertex phase
      | killWait => exact lawful_vertexOver hvalid (Or.inr hphase) vertex phase
      | error => exact lawful_rest hvalid
      | succeeded | failed | killed =>
          dsimp only
          split
          · exact lawful_rest hvalid
          · exact lawful_violate hvalid _
      | new | inited => exact lawful_violate hvalid _

end JobFlow.Dag
