import JobFlow.Event
import JobFlow.Proofs.Positions

/-!
What a job is told of its vertices. Of the reports of a vertex the first one counts, and with kills
between the reports the outcome of the job is a rule on three positions: the first kill, the first report
of a harm, and the last report that is the first of its vertex. Main statement: by this rule a kill
prevails if and only if it comes while a report is missing and before any harm is reported.
-/

namespace JobFlow

/-- The ending of a vertex that a signal reports. -/
def DagSignal.reports (vertex : VertexId) : DagSignal → Option Phase
  | .vertexCompleted other phase => if other = vertex then some phase else none
  | .init | .start | .kill => none

/-- A kill, or the report that one of some vertices ended otherwise than in error. -/
def DagSignal.Tells (vertices : List VertexId) : DagSignal → Prop
  | .kill => True
  | .vertexCompleted vertex phase =>
    vertex ∈ vertices ∧ (phase = .succeeded ∨ phase = .failed ∨ phase = .killed)
  | .init | .start => False

namespace Reports

/-- The ending of a vertex by its first report. -/
def first? (signals : List DagSignal) (vertex : VertexId) : Option Phase :=
  signals.findSome? (·.reports vertex)

/-- The position of the first report of a vertex. -/
def firstAt? (signals : List DagSignal) (vertex : VertexId) : Option Nat :=
  signals.findIdx? (fun signal => (signal.reports vertex).isSome)

/-- By its first report a vertex failed or was killed. -/
def Harmed (signals : List DagSignal) (vertex : VertexId) : Prop :=
  first? signals vertex = some .failed ∨ first? signals vertex = some .killed

instance (signals : List DagSignal) (vertex : VertexId) : Decidable (Harmed signals vertex) :=
  inferInstanceAs (Decidable (_ ∨ _))

/-- The position of the first kill. -/
def killAt? (signals : List DagSignal) : Option Nat := signals.findIdx? (· = .kill)

/-- The position of the last report that is the first of its vertex. -/
def lastAt? (vertices : List VertexId) (signals : List DagSignal) : Option Nat :=
  (vertices.filterMap (firstAt? signals)).max?

/-- The position of the first report of a harm that is the first of its vertex. -/
def harmAt? (vertices : List VertexId) (signals : List DagSignal) : Option Nat :=
  ((vertices.filter (fun vertex => Harmed signals vertex)).filterMap (firstAt? signals)).min?

/-- There is a kill before the last vertex has been reported and before a harm has. -/
def KillPrevails (vertices : List VertexId) (signals : List DagSignal) : Prop :=
  ∃ kill ∈ killAt? signals, (∃ last ∈ lastAt? vertices signals, kill < last) ∧
    ∀ harm ∈ harmAt? vertices signals, kill < harm

instance (vertices : List VertexId) (signals : List DagSignal) :
    Decidable (KillPrevails vertices signals) :=
  inferInstanceAs (Decidable (∃ kill ∈ killAt? signals, _))

/-- How a job stands that has been told so much since its start. -/
def outcome (vertices : List VertexId) (signals : List DagSignal) : Phase :=
  if ∃ vertex ∈ vertices, first? signals vertex = none then
    if .kill ∈ signals then .killWait else .running
  else if KillPrevails vertices signals then .killed
  else if (harmAt? vertices signals).isSome then .failed
  else .succeeded

/-- A kill counts that comes while a report is missing and before any harm is reported. -/
def KillCounts (vertices : List VertexId) (signals : List DagSignal) : Prop :=
  ∃ earlier, earlier ++ [.kill] <+: signals ∧ (∃ vertex ∈ vertices, first? earlier vertex = none) ∧
    ∀ vertex ∈ vertices, ¬ Harmed earlier vertex

variable {vertices : List VertexId} {signals : List DagSignal} {vertex : VertexId}

/-! ### First reports -/

theorem reports_eq_some_iff {signal : DagSignal} {phase : Phase} :
    signal.reports vertex = some phase ↔ signal = .vertexCompleted vertex phase := by
  cases signal with
  | vertexCompleted other ending =>
      rw [DagSignal.reports]
      by_cases h : other = vertex <;> simp [h]
  | init | start | kill => simp [DagSignal.reports]

theorem first?_append (earlier later : List DagSignal) (vertex : VertexId) :
    first? (earlier ++ later) vertex = (first? earlier vertex).or (first? later vertex) :=
  List.findSome?_append

theorem first?_concat (signal : DagSignal) :
    first? (signals ++ [signal]) vertex = (first? signals vertex).or (signal.reports vertex) :=
  Positions.findSome?_concat _ signals signal

/-- The first report stays the first one. -/
theorem first?_extends {earlier : List DagSignal} (hpre : earlier <+: signals) {phase : Phase}
    (hfirst : first? earlier vertex = some phase) : first? signals vertex = some phase := by
  obtain ⟨later, rfl⟩ := hpre
  rw [first?_append, hfirst, Option.some_or]

theorem Harmed.extends {earlier : List DagSignal} (hpre : earlier <+: signals)
    (hharmed : Harmed earlier vertex) : Harmed signals vertex :=
  hharmed.imp (first?_extends hpre) (first?_extends hpre)

theorem exists_firstAt? (hfirst : first? signals vertex ≠ none) :
    ∃ index, firstAt? signals vertex = some index :=
  Positions.exists_findIdx? hfirst

/-- Before a kill a vertex is not reported if and only if its first report comes after the kill. -/
theorem first?_eq_none_iff_lt {earlier later : List DagSignal} {index : Nat}
    (hat : firstAt? (earlier ++ .kill :: later) vertex = some index) :
    first? earlier vertex = none ↔ earlier.length < index :=
  Positions.findSome?_eq_none_iff_lt rfl hat

/-! ### Positions -/

theorem exists_killAt? (earlier later : List DagSignal) :
    ∃ kill, killAt? (earlier ++ .kill :: later) = some kill ∧ kill ≤ earlier.length := by
  rw [killAt?, List.findIdx?_append]
  cases hearlier : earlier.findIdx? (· = .kill) with
  | none => exact ⟨earlier.length, by simp [List.findIdx?_cons], Nat.le_refl _⟩
  | some kill =>
      obtain ⟨hlt, -⟩ := List.findIdx?_eq_some_iff_getElem.mp hearlier
      exact ⟨kill, rfl, Nat.le_of_lt hlt⟩

theorem lt_lastAt?_iff {kill : Nat} : (∃ last ∈ lastAt? vertices signals, kill < last) ↔
    ∃ vertex ∈ vertices, ∃ index, firstAt? signals vertex = some index ∧ kill < index :=
  Positions.lt_max?_iff

theorem lt_harmAt?_iff {kill : Nat} : (∀ harm ∈ harmAt? vertices signals, kill < harm) ↔
    ∀ vertex ∈ vertices, Harmed signals vertex → ∀ index, firstAt? signals vertex = some index →
      kill < index := by
  constructor
  · intro hall vertex hvertex hharmed index hat
    have hmem : index ∈ (vertices.filter (fun vertex => Harmed signals vertex)).filterMap
        (firstAt? signals) :=
      List.mem_filterMap.mpr ⟨vertex, List.mem_filter.mpr ⟨hvertex, decide_eq_true hharmed⟩, hat⟩
    obtain ⟨harm, hharm⟩ := Option.isSome_iff_exists.mp (List.isSome_min?_of_mem hmem)
    exact Nat.lt_of_lt_of_le (hall harm hharm) ((List.min?_eq_some_iff.mp hharm).2 _ hmem)
  · intro hall harm hharm
    obtain ⟨vertex, hvertex, hat⟩ := List.mem_filterMap.mp (List.min?_mem hharm)
    obtain ⟨hmem, hharmed⟩ := List.mem_filter.mp hvertex
    exact hall vertex hmem (of_decide_eq_true hharmed) harm hat

theorem isSome_harmAt?_iff :
    (harmAt? vertices signals).isSome ↔ ∃ vertex ∈ vertices, Harmed signals vertex := by
  constructor
  · intro hsome
    obtain ⟨harm, hharm⟩ := Option.isSome_iff_exists.mp hsome
    obtain ⟨vertex, hvertex, -⟩ := List.mem_filterMap.mp (List.min?_mem hharm)
    obtain ⟨hmem, hharmed⟩ := List.mem_filter.mp hvertex
    exact ⟨vertex, hmem, of_decide_eq_true hharmed⟩
  · rintro ⟨vertex, hvertex, hharmed⟩
    have hreported : first? signals vertex ≠ none := by
      rcases hharmed with h | h <;> simp [h]
    obtain ⟨index, hat⟩ := exists_firstAt? hreported
    exact List.isSome_min?_of_mem (List.mem_filterMap.mpr
      ⟨vertex, List.mem_filter.mpr ⟨hvertex, decide_eq_true hharmed⟩, hat⟩)

/-- When all vertices are reported, the rule on positions says which kills count. -/
theorem killPrevails_iff (hall : ∀ vertex ∈ vertices, first? signals vertex ≠ none) :
    KillPrevails vertices signals ↔ KillCounts vertices signals := by
  constructor
  · rintro ⟨kill, hkill, hlast, hharm⟩
    obtain ⟨earlier, later, rfl, rfl, -⟩ := Positions.split_of_findIdx? hkill
    obtain ⟨vertex, hvertex, index, hat, hlt⟩ := lt_lastAt?_iff.mp hlast
    refine ⟨earlier, ⟨later, by simp⟩, ⟨vertex, hvertex, (first?_eq_none_iff_lt hat).mpr hlt⟩, ?_⟩
    intro other hother hharmed
    -- A harm reported before the kill would stand in front of it.
    obtain ⟨place, hplace⟩ := exists_firstAt? (hall other hother)
    have hlater := lt_harmAt?_iff.mp hharm other hother
      (hharmed.extends (List.prefix_append earlier _)) place hplace
    rw [← first?_eq_none_iff_lt hplace] at hlater
    rcases hharmed with h | h
    · simp [h] at hlater
    · simp [h] at hlater
  · rintro ⟨earlier, ⟨later, hsplit⟩, ⟨vertex, hvertex, hnone⟩, hunharmed⟩
    rw [List.append_assoc, List.singleton_append] at hsplit
    subst hsplit
    -- The first kill may come before the one that counts, but not after it.
    obtain ⟨kill, hkill, hle⟩ := exists_killAt? earlier later
    refine ⟨kill, hkill, lt_lastAt?_iff.mpr ?_, lt_harmAt?_iff.mpr ?_⟩
    · obtain ⟨index, hat⟩ := exists_firstAt? (hall vertex hvertex)
      exact ⟨vertex, hvertex, index, hat, Nat.lt_of_le_of_lt hle ((first?_eq_none_iff_lt hat).mp hnone)⟩
    · intro other hother hharmed index hat
      refine Nat.lt_of_le_of_lt hle ((first?_eq_none_iff_lt hat).mp ?_)
      cases hfirst : first? earlier other with
      | none => rfl
      | some phase =>
          have hsame := first?_extends (List.prefix_append earlier (.kill :: later)) hfirst
          rw [Harmed, hsame, ← hfirst] at hharmed
          exact absurd hharmed (hunharmed other hother)

/-- The next signal makes a kill count only if it is one. -/
theorem killCounts_concat {signal : DagSignal} : KillCounts vertices (signals ++ [signal]) ↔
    KillCounts vertices signals ∨ signal = .kill ∧ (∃ vertex ∈ vertices, first? signals vertex = none) ∧
      ∀ vertex ∈ vertices, ¬ Harmed signals vertex := by
  constructor
  · rintro ⟨earlier, hpre, hcounts⟩
    rcases List.prefix_concat_iff.mp hpre with heq | hbefore
    · obtain ⟨rfl, hsignal⟩ := List.append_inj' heq rfl
      exact Or.inr ⟨(List.singleton_inj.mp hsignal).symm, hcounts⟩
    · exact Or.inl ⟨earlier, hbefore, hcounts⟩
  · rintro (⟨earlier, hpre, hcounts⟩ | ⟨rfl, hcounts⟩)
    · exact ⟨earlier, hpre.trans (List.prefix_append signals [signal]), hcounts⟩
    · exact ⟨signals, List.prefix_refl _, hcounts⟩

/-! ### The order of the reports -/

theorem first?_of_perm {other : List DagSignal} (hperm : signals.Perm other)
    (hagree : ∀ left right, .vertexCompleted vertex left ∈ signals →
      .vertexCompleted vertex right ∈ signals → left = right) :
    first? other vertex = first? signals vertex :=
  Positions.findSome?_of_perm (fun _ _ => reports_eq_some_iff) hperm hagree

/-- Without a kill the outcome depends on nothing but the first reports. -/
theorem outcome_of_unkilled {other : List DagSignal} (hkill : .kill ∉ signals) (hother : .kill ∉ other)
    (hfirst : ∀ vertex, first? other vertex = first? signals vertex) :
    outcome vertices other = outcome vertices signals := by
  have hprevails : ∀ signals, DagSignal.kill ∉ signals → ¬ KillPrevails vertices signals := by
    rintro signals hkill ⟨kill, hat, -⟩
    obtain ⟨earlier, later, rfl, -⟩ := Positions.split_of_findIdx? hat
    exact hkill (List.mem_append_right earlier List.mem_cons_self)
  have hharm : (harmAt? vertices other).isSome = (harmAt? vertices signals).isSome := by
    rw [Bool.eq_iff_iff, isSome_harmAt?_iff, isSome_harmAt?_iff]
    unfold Harmed
    simp only [hfirst]
  unfold outcome
  simp only [hfirst, hharm, hkill, hother, hprevails _ hkill, hprevails _ hother, if_false]

end Reports

end JobFlow
