import JobFlow.Step

/-!
Histories of a machine. A machine is handed signals one after the other, and what its steps send adds
up. Main statements: what is sent falls into parts, and a part whose sending closes a door behind it
comes from one step at most and before every part that is sent with the door closed.
-/

namespace JobFlow.Step

variable {μ σ α : Type}

/-- A machine that is handed signals one after the other, as one step that sends what all of them send. -/
def run (handle : μ → σ → Step μ) (start : μ) : List σ → Step μ
  | [] => rest start
  | signal :: signals => (handle start signal).andThen (run handle · signals)

/-- On the way through the signals the machine makes a step of some kind. -/
def Occurs (handle : μ → σ → Step μ) (start : μ) (signals : List σ) (kind : μ → σ → μ → Prop) : Prop :=
  ∃ earlier signal, earlier ++ [signal] <+: signals ∧
    kind (run handle start earlier).machine signal (run handle start (earlier ++ [signal])).machine

/-- A contribution of the step with which a property comes to hold. -/
def upon (property : μ → Prop) [DecidablePred property] (content : μ → List α) (before : μ) (_ : σ)
    (after : μ) : List α :=
  if ¬ property before ∧ property after then content after else []

/-- What each step contributes to a list, one after the other. -/
def gather (handle : μ → σ → Step μ) (piece : μ → σ → μ → List α) (start : μ) : List σ → List α
  | [] => []
  | signal :: signals => piece start signal (handle start signal).machine ++
      gather handle piece (handle start signal).machine signals

variable {handle : μ → σ → Step μ} {start : μ}

@[simp] theorem run_nil : run handle start [] = rest start := rfl

theorem run_cons (signal : σ) (signals : List σ) : run handle start (signal :: signals) =
    (handle start signal).andThen (run handle · signals) := rfl

@[simp] theorem machine_run_cons (signal : σ) (signals : List σ) :
    (run handle start (signal :: signals)).machine =
      (run handle (handle start signal).machine signals).machine := rfl

@[simp] theorem outbound_run_cons (signal : σ) (signals : List σ) :
    (run handle start (signal :: signals)).outbound = (handle start signal).outbound ++
      (run handle (handle start signal).machine signals).outbound := rfl

/-- A history goes on from where its first part has left the machine. -/
theorem run_append (earlier later : List σ) : run handle start (earlier ++ later) =
    (run handle start earlier).andThen (run handle · later) := by
  induction earlier generalizing start with
  | nil => rfl
  | cons signal earlier ih =>
      rw [List.cons_append, run_cons, run_cons, andThen_assoc]
      exact andThen_congr ih

theorem machine_run_append (earlier later : List σ) :
    (run handle start (earlier ++ later)).machine =
      (run handle (run handle start earlier).machine later).machine := by
  rw [run_append, machine_andThen]

theorem machine_run_concat (signals : List σ) (signal : σ) :
    (run handle start (signals ++ [signal])).machine =
      (handle (run handle start signals).machine signal).machine := machine_run_append signals [signal]

/-! ### Steps on the way -/

variable {kind : μ → σ → μ → Prop}

theorem not_occurs_nil : ¬ Occurs handle start [] kind := by
  rintro ⟨earlier, signal, hpre, -⟩
  exact List.append_ne_nil_of_right_ne_nil earlier (List.cons_ne_nil signal []) (List.prefix_nil.mp hpre)

/-- A step on the way is the first one or comes after it. -/
theorem occurs_cons {signal : σ} {signals : List σ} : Occurs handle start (signal :: signals) kind ↔
    kind start signal (handle start signal).machine ∨
      Occurs handle (handle start signal).machine signals kind := by
  constructor
  · rintro ⟨earlier, last, hpre, hkind⟩
    cases earlier with
    | nil =>
        obtain ⟨rfl, -⟩ := List.cons_prefix_cons.mp hpre
        exact Or.inl hkind
    | cons first earlier =>
        obtain ⟨rfl, hrest⟩ := List.cons_prefix_cons.mp hpre
        exact Or.inr ⟨earlier, last, hrest, hkind⟩
  · rintro (hkind | ⟨earlier, last, hpre, hkind⟩)
    · exact ⟨[], signal, List.cons_prefix_cons.mpr ⟨rfl, List.nil_prefix⟩, hkind⟩
    · exact ⟨signal :: earlier, last, List.cons_prefix_cons.mpr ⟨rfl, hpre⟩, hkind⟩

/-! ### What every step keeps -/

section Keeps

variable {motive : μ → Prop} (hstart : motive start)

include hstart

/-- What every step keeps holds in the whole of a history. -/
theorem run_keeps (hkeeps : ∀ machine signal, motive machine → motive (handle machine signal).machine)
    (signals : List σ) : motive (run handle start signals).machine := by
  induction signals generalizing start with
  | nil => exact hstart
  | cons signal signals ih => exact ih (hkeeps start signal hstart)

omit hstart in
/-- What every step keeps of a machine and of all that was sent so far. -/
theorem run_keeps_sent {motive : μ → List Event → Prop} {sent : List Event} (hstart : motive start sent)
    (hkeeps : ∀ machine sent signal, motive machine sent →
      motive (handle machine signal).machine (sent ++ (handle machine signal).outbound))
    (signals : List σ) : motive (run handle start signals).machine
      (sent ++ (run handle start signals).outbound) := by
  induction signals generalizing start sent with
  | nil => simpa using hstart
  | cons signal signals ih =>
      rw [machine_run_cons, outbound_run_cons, ← List.append_assoc]
      exact ih (hkeeps start sent signal hstart)

/-- What holds of everything that a step sends holds of everything that is sent. -/
theorem outbound_run_forall {property : Event → Prop}
    (hsteps : ∀ machine signal, motive machine → motive (handle machine signal).machine ∧
      ∀ event ∈ (handle machine signal).outbound, property event) (signals : List σ) :
    ∀ event ∈ (run handle start signals).outbound, property event := by
  induction signals generalizing start with
  | nil =>
      intro event hevent
      cases hevent
  | cons signal signals ih =>
      obtain ⟨hnext, hstep⟩ := hsteps start signal hstart
      rw [outbound_run_cons]
      exact List.forall_mem_append.mpr ⟨hstep, ih hnext⟩

/-- Kinds of steps are told apart by what they do to machines that the history can reach. -/
theorem Occurs.imp {kind other : μ → σ → μ → Prop} {signals : List σ}
    (hoccurs : Occurs handle start signals kind)
    (hkeeps : ∀ machine signal, motive machine → motive (handle machine signal).machine)
    (hkind : ∀ machine signal, motive machine → kind machine signal (handle machine signal).machine →
      other machine signal (handle machine signal).machine) :
    Occurs handle start signals other := by
  obtain ⟨earlier, signal, hpre, h⟩ := hoccurs
  refine ⟨earlier, signal, hpre, ?_⟩
  rw [machine_run_concat] at h ⊢
  exact hkind _ signal (run_keeps hstart hkeeps earlier) h

theorem occurs_congr {kind other : μ → σ → μ → Prop} {signals : List σ}
    (hkeeps : ∀ machine signal, motive machine → motive (handle machine signal).machine)
    (hkind : ∀ machine signal, motive machine → (kind machine signal (handle machine signal).machine ↔
      other machine signal (handle machine signal).machine)) :
    Occurs handle start signals kind ↔ Occurs handle start signals other :=
  ⟨fun hoccurs => hoccurs.imp hstart hkeeps (fun machine signal h => (hkind machine signal h).mp),
    fun hoccurs => hoccurs.imp hstart hkeeps (fun machine signal h => (hkind machine signal h).mpr)⟩

omit hstart in
/-- What a step on the way has brought about holds in the end if steps never undo it. -/
theorem Occurs.kept {valid motive : μ → Prop} {signals : List σ}
    (hoccurs : Occurs handle start signals kind) (hvalid : valid start)
    (hsteps : ∀ machine signal, valid machine → valid (handle machine signal).machine ∧
      (motive machine → motive (handle machine signal).machine))
    (hkind : ∀ machine signal, valid machine → kind machine signal (handle machine signal).machine →
      motive (handle machine signal).machine) :
    motive (run handle start signals).machine := by
  obtain ⟨earlier, signal, ⟨later, rfl⟩, h⟩ := hoccurs
  have hbefore := run_keeps hvalid (fun machine signal h => (hsteps machine signal h).1) earlier
  rw [machine_run_append]
  rw [machine_run_concat] at h ⊢
  exact (run_keeps (motive := fun machine => valid machine ∧ motive machine)
    ⟨(hsteps _ signal hbefore).1, hkind _ signal hbefore h⟩
    (fun machine signal h => ⟨(hsteps machine signal h.1).1, (hsteps machine signal h.1).2 h.2⟩)
    later).2

/-- What steps never undo holds in the end if a step has brought it about. -/
theorem occurs_change_iff {property : μ → Prop} (hbefore : ¬ property start)
    (hsteps : ∀ machine signal, motive machine → motive (handle machine signal).machine ∧
      (property machine → property (handle machine signal).machine)) (signals : List σ) :
    Occurs handle start signals (fun before _ after => ¬ property before ∧ property after) ↔
      property (run handle start signals).machine := by
  refine ⟨fun hoccurs => hoccurs.kept (motive := property) hstart hsteps (fun _ _ _ h => h.2),
    fun hafter => ?_⟩
  induction signals generalizing start with
  | nil => exact absurd hafter hbefore
  | cons signal signals ih =>
      rw [occurs_cons]
      by_cases hnext : property (handle start signal).machine
      · exact Or.inl ⟨hbefore, hnext⟩
      · exact Or.inr (ih (hsteps start signal hstart).1 hnext hafter)

end Keeps

/-! ### Parts of what is sent -/

/-- What is contributed on a condition alone shows that the condition holds. -/
theorem of_ite_ne_nil {condition : Prop} [Decidable condition] {items : List α}
    (hitems : (if condition then items else []) ≠ []) :
    condition ∧ (if condition then items else []) = items := by
  by_cases hcondition : condition
  · exact ⟨hcondition, if_pos hcondition⟩
  · rw [if_neg hcondition] at hitems
    exact absurd rfl hitems

theorem gather_ne_nil_iff {piece : μ → σ → μ → List α} {signals : List σ} :
    gather handle piece start signals ≠ [] ↔
      Occurs handle start signals (fun before signal after => piece before signal after ≠ []) := by
  induction signals generalizing start with
  | nil => simp [gather, not_occurs_nil]
  | cons signal signals ih =>
      rw [gather, occurs_cons, ← ih, ← Classical.not_and_iff_not_or_not, ← List.append_eq_nil_iff]

theorem outbound_run_eq_gather (valid : μ → Prop) {piece : μ → σ → μ → List Event}
    (hsteps : ∀ machine signal, valid machine → valid (handle machine signal).machine ∧
      (handle machine signal).outbound = piece machine signal (handle machine signal).machine)
    (hvalid : valid start) (signals : List σ) :
    (run handle start signals).outbound = gather handle piece start signals := by
  induction signals generalizing start with
  | nil => rfl
  | cons signal signals ih =>
      obtain ⟨hnext, hsends⟩ := hsteps start signal hvalid
      rw [outbound_run_cons, gather, hsends, ih hnext]

/-- A part that is sent once: it is sent through a door which is closed by that and never opens again. -/
structure Once (handle : μ → σ → Step μ) (valid door : μ → Prop) (piece : μ → σ → μ → List α) :
    Prop where
  keeps : ∀ machine signal, valid machine → valid (handle machine signal).machine
  stays : ∀ machine signal, valid machine → door machine → door (handle machine signal).machine
  opened : ∀ machine signal, valid machine →
    piece machine signal (handle machine signal).machine ≠ [] → ¬ door machine
  closes : ∀ machine signal, valid machine →
    piece machine signal (handle machine signal).machine ≠ [] → door (handle machine signal).machine

namespace Once

variable {valid door : μ → Prop} {piece : μ → σ → μ → List α} (honce : Once handle valid door piece)

include honce

/-- Nothing is contributed once the door is closed. -/
theorem gather_eq_nil (hvalid : valid start) (hdoor : door start) (signals : List σ) :
    gather handle piece start signals = [] := by
  induction signals generalizing start with
  | nil => rfl
  | cons signal signals ih =>
      have hfirst : piece start signal (handle start signal).machine = [] :=
        Classical.not_not.mp (fun hpiece => honce.opened start signal hvalid hpiece hdoor)
      rw [gather, hfirst, List.nil_append,
        ih (honce.keeps start signal hvalid) (honce.stays start signal hvalid hdoor)]

/-- One step at most contributes. -/
theorem gather_cases (hvalid : valid start) (signals : List σ) :
    gather handle piece start signals = [] ∨ Occurs handle start signals (fun before signal after =>
      piece before signal after ≠ [] ∧
        gather handle piece start signals = piece before signal after) := by
  induction signals generalizing start with
  | nil => exact Or.inl rfl
  | cons signal signals ih =>
      have hnext := honce.keeps start signal hvalid
      rw [gather]
      by_cases hpiece : piece start signal (handle start signal).machine = []
      · rw [hpiece, List.nil_append]
        exact (ih hnext).imp_right (fun hoccurs => occurs_cons.mpr (Or.inr hoccurs))
      · have hdoor := honce.closes start signal hvalid hpiece
        rw [honce.gather_eq_nil hnext hdoor signals, List.append_nil]
        exact Or.inr (occurs_cons.mpr (Or.inl ⟨hpiece, rfl⟩))

/-- What closes the door itself comes after what is sent through it. -/
theorem gather_append {later : μ → σ → μ → List α} (hcloses : ∀ machine signal, valid machine →
    later machine signal (handle machine signal).machine ≠ [] → door (handle machine signal).machine)
    (hvalid : valid start) (signals : List σ) :
    gather handle (fun before signal after => piece before signal after ++ later before signal after)
        start signals =
      gather handle piece start signals ++ gather handle later start signals := by
  induction signals generalizing start with
  | nil => rfl
  | cons signal signals ih =>
      have hnext := honce.keeps start signal hvalid
      rw [gather, gather, gather, ih hnext]
      by_cases hlater : later start signal (handle start signal).machine = []
      · rw [hlater, List.append_nil, List.nil_append, List.append_assoc]
      · have hdoor := hcloses start signal hvalid hlater
        rw [honce.gather_eq_nil hnext hdoor signals, List.append_nil, List.nil_append,
          List.append_assoc]

/-- What closes the door for a part or for those behind it. -/
theorem closes_of_append {later : List α} {machine : μ} {signal : σ} (hvalid : valid machine)
    (hlater : later ≠ [] → door (handle machine signal).machine)
    (hparts : piece machine signal (handle machine signal).machine ++ later ≠ []) :
    door (handle machine signal).machine := by
  by_cases hpiece : piece machine signal (handle machine signal).machine = []
  · rw [hpiece, List.nil_append] at hparts
    exact hlater hparts
  · exact honce.closes machine signal hvalid hpiece

end Once

section Parts

variable {valid door door' door'' : μ → Prop} {first second third : μ → σ → μ → List Event}
  (hfirst : Once handle valid door first) (hsecond : Once handle valid door' second)
  (hthird : Once handle valid door'' third)

include hfirst hsecond hthird

/-- A history whose steps send four parts sends them one behind the other, if the first three are sent
once each and the door of a part cannot be open when the door of the next one is closed. -/
theorem outbound_run_of_parts (last : μ → σ → μ → List Event)
    (hdoors : ∀ machine, valid machine → (door'' machine → door' machine) ∧ (door' machine → door machine))
    (hlast : ∀ machine signal, valid machine → last machine signal (handle machine signal).machine ≠ [] →
      door'' (handle machine signal).machine)
    (hsteps : ∀ machine signal, valid machine → (handle machine signal).outbound =
      first machine signal (handle machine signal).machine ++
        (second machine signal (handle machine signal).machine ++
          (third machine signal (handle machine signal).machine ++
            last machine signal (handle machine signal).machine)))
    (hvalid : valid start) (signals : List σ) : (run handle start signals).outbound =
      gather handle first start signals ++ (gather handle second start signals ++
        (gather handle third start signals ++ gather handle last start signals)) := by
  have hthirdCloses := fun machine signal (h : valid machine) =>
    hthird.closes_of_append h (hlast machine signal h)
  have hsecondCloses := fun machine signal (h : valid machine) =>
    hsecond.closes_of_append h (fun hparts =>
      (hdoors _ (hfirst.keeps machine signal h)).1 (hthirdCloses machine signal h hparts))
  calc (run handle start signals).outbound
      = gather handle (fun before signal after => first before signal after ++
          (second before signal after ++ (third before signal after ++ last before signal after)))
          start signals :=
        outbound_run_eq_gather valid (fun machine signal h =>
          ⟨hfirst.keeps machine signal h, hsteps machine signal h⟩) hvalid signals
    _ = gather handle first start signals ++ gather handle (fun before signal after =>
          second before signal after ++ (third before signal after ++ last before signal after))
          start signals :=
        hfirst.gather_append (fun machine signal h hparts =>
          (hdoors _ (hfirst.keeps machine signal h)).2 (hsecondCloses machine signal h hparts))
          hvalid signals
    _ = gather handle first start signals ++ (gather handle second start signals ++
          gather handle (fun before signal after =>
            third before signal after ++ last before signal after) start signals) := by
        rw [hsecond.gather_append (fun machine signal h hparts =>
          (hdoors _ (hfirst.keeps machine signal h)).1 (hthirdCloses machine signal h hparts))
          hvalid signals]
    _ = _ := by rw [hthird.gather_append hlast hvalid signals]

end Parts

section Upon

variable {property : μ → Prop} [DecidablePred property] {content : μ → List α}

theorem of_upon {before after : μ} {signal : σ} (hupon : upon property content before signal after ≠ []) :
    ¬ property before ∧ property after := (of_ite_ne_nil hupon).1

/-- What goes with a property that steps never undo is contributed once. -/
theorem once_upon {valid : μ → Prop} (hsteps : ∀ machine signal, valid machine →
    valid (handle machine signal).machine ∧ (property machine → property (handle machine signal).machine)) :
    Once handle valid property (upon property content) where
  keeps machine signal hvalid := (hsteps machine signal hvalid).1
  stays machine signal hvalid := (hsteps machine signal hvalid).2
  opened _ _ _ hupon := (of_upon hupon).1
  closes _ _ _ hupon := (of_upon hupon).2

/-- What goes with a property and does not change afterwards can be read off in the end. -/
theorem gather_upon {valid : μ → Prop} (hsteps : ∀ machine signal, valid machine →
      valid (handle machine signal).machine ∧ (property machine →
        property (handle machine signal).machine ∧ content (handle machine signal).machine = content machine))
    (hvalid : valid start) (hbefore : ¬ property start) (signals : List σ) :
    gather handle (upon property content) start signals =
      if property (run handle start signals).machine then content (run handle start signals).machine
      else [] := by
  have honce : Once handle valid property (upon property content) :=
    once_upon (fun machine signal h => (hsteps machine signal h).imp_right (fun hstays h => (hstays h).1))
  induction signals generalizing start with
  | nil => exact (if_neg hbefore).symm
  | cons signal signals ih =>
      have hnext := (hsteps start signal hvalid).1
      rw [gather, machine_run_cons]
      by_cases hafter : property (handle start signal).machine
      · have hkept := run_keeps (motive := fun machine => valid machine ∧ property machine ∧
            content machine = content (handle start signal).machine) ⟨hnext, hafter, rfl⟩
          (fun machine signal h => ⟨(hsteps machine signal h.1).1, ((hsteps machine signal h.1).2 h.2.1).1,
            ((hsteps machine signal h.1).2 h.2.1).2.trans h.2.2⟩) signals
        rw [upon, if_pos ⟨hbefore, hafter⟩, honce.gather_eq_nil hnext hafter, List.append_nil,
          if_pos hkept.2.1, hkept.2.2]
      · rw [upon, if_neg (fun h => hafter h.2), List.nil_append, ih hnext hafter]

end Upon

end JobFlow.Step
