import Mathlib.Data.List.Basic

/-!
Lists of signals of which the first that says something about a thing counts. What the first one says
and where it stands, before or after a mark in the list.
-/

namespace JobFlow.Positions

variable {σ ρ : Type} {reads : σ → Option ρ} {signals : List σ}

theorem findSome?_concat (reads : σ → Option ρ) (signals : List σ) (signal : σ) :
    (signals ++ [signal]).findSome? reads = (signals.findSome? reads).or (reads signal) := by
  rw [List.findSome?_append, List.findSome?_singleton]

theorem findSome?_eq_none_iff :
    signals.findSome? reads = none ↔ signals.findIdx? (fun signal => (reads signal).isSome) = none := by
  rw [List.findSome?_eq_none_iff, List.findIdx?_eq_none_iff]
  simp

theorem exists_findIdx? (hreads : signals.findSome? reads ≠ none) :
    ∃ index, signals.findIdx? (fun signal => (reads signal).isSome) = some index :=
  Option.ne_none_iff_exists'.mp (fun hnone => hreads (findSome?_eq_none_iff.mpr hnone))

/-- Nothing is said before a mark if and only if the first to say something comes after it. -/
theorem findSome?_eq_none_iff_lt {earlier later : List σ} {mark : σ} (hmark : reads mark = none)
    {index : Nat}
    (hat : (earlier ++ mark :: later).findIdx? (fun signal => (reads signal).isSome) = some index) :
    earlier.findSome? reads = none ↔ earlier.length < index := by
  rw [List.findIdx?_append] at hat
  cases hearlier : earlier.findIdx? (fun signal => (reads signal).isSome) with
  | none =>
      refine iff_of_true (findSome?_eq_none_iff.mpr hearlier) ?_
      rw [hearlier, Option.none_or, List.findIdx?_cons, hmark] at hat
      simp only [Option.isSome_none, Bool.false_eq_true, if_false, Option.map_map,
        Option.map_eq_some_iff] at hat
      obtain ⟨after, -, rfl⟩ := hat
      simp only [Function.comp]
      omega
  | some early =>
      have hreads : earlier.findSome? reads ≠ none := by
        rw [Ne, findSome?_eq_none_iff, hearlier]
        simp
      refine iff_of_false hreads ?_
      rw [hearlier, Option.some_or] at hat
      cases hat
      exact Nat.not_lt.mpr (Nat.le_of_lt (List.findIdx?_eq_some_iff_getElem.mp hearlier).1)

/-- Something is said before a mark if and only if the first to say something comes before it. -/
theorem findSome?_ne_none_iff_lt {earlier later : List σ} {mark : σ} (hmark : reads mark = none)
    {index : Nat}
    (hat : (earlier ++ mark :: later).findIdx? (fun signal => (reads signal).isSome) = some index) :
    earlier.findSome? reads ≠ none ↔ index < earlier.length := by
  have hne : index ≠ earlier.length := by
    rintro rfl
    obtain ⟨hlt, hsome, -⟩ := List.findIdx?_eq_some_iff_getElem.mp hat
    simp [hmark] at hsome
  rw [Ne, findSome?_eq_none_iff_lt hmark hat]
  omega

/-- The first mark is a place where the signals can be split. -/
theorem split_of_findIdx? [DecidableEq σ] {mark : σ} {place : Nat}
    (hat : signals.findIdx? (· = mark) = some place) :
    ∃ earlier later, signals = earlier ++ mark :: later ∧ earlier.length = place ∧ mark ∉ earlier := by
  obtain ⟨hlt, hget, hbefore⟩ := List.findIdx?_eq_some_iff_getElem.mp hat
  refine ⟨signals.take place, signals.drop (place + 1), ?_,
    List.length_take_of_le (Nat.le_of_lt hlt), ?_⟩
  · rw [← of_decide_eq_true hget, ← List.drop_eq_getElem_cons hlt, List.take_append_drop]
  · intro hmem
    obtain ⟨index, hindex, heq⟩ := List.mem_take_iff_getElem.mp hmem
    exact hbefore index (by omega) (decide_eq_true heq)

/-- The last of some places comes after a bound if and only if one of them does. -/
theorem lt_max?_iff {ι : Type} {place : ι → Option Nat} {items : List ι} {bound : Nat} :
    (∃ last ∈ (items.filterMap place).max?, bound < last) ↔
      ∃ item ∈ items, ∃ index, place item = some index ∧ bound < index := by
  constructor
  · rintro ⟨last, hlast, hlt⟩
    obtain ⟨item, hitem, hat⟩ := List.mem_filterMap.mp (List.max?_mem hlast)
    exact ⟨item, hitem, last, hat, hlt⟩
  · rintro ⟨item, hitem, index, hat, hlt⟩
    have hmem := List.mem_filterMap.mpr ⟨item, hitem, hat⟩
    obtain ⟨last, hlast⟩ := Option.isSome_iff_exists.mp (List.isSome_max?_of_mem hmem)
    exact ⟨last, hlast, Nat.lt_of_lt_of_le hlt ((List.max?_eq_some_iff.mp hlast).2 _ hmem)⟩

/-! ### The order of the signals -/

section Report

variable {report : ρ → σ} (hreport : ∀ signal value, reads signal = some value ↔ signal = report value)

include hreport

/-- If all reports agree, each of them says what the first one says. -/
theorem findSome?_eq_some_iff_mem
    (hagree : ∀ left right, report left ∈ signals → report right ∈ signals → left = right) {value : ρ} :
    signals.findSome? reads = some value ↔ report value ∈ signals := by
  have hmem : ∀ value, signals.findSome? reads = some value → report value ∈ signals := by
    intro value hfirst
    obtain ⟨signal, hsignal, hreads⟩ := List.exists_of_findSome?_eq_some hfirst
    rw [hreport] at hreads
    exact hreads ▸ hsignal
  refine ⟨hmem value, fun hvalue => ?_⟩
  cases hfirst : signals.findSome? reads with
  | none =>
      have hnone := List.findSome?_eq_none_iff.mp hfirst _ hvalue
      rw [(hreport _ _).mpr rfl] at hnone
      cases hnone
  | some other => rw [hagree other value (hmem other hfirst) hvalue]

theorem findSome?_of_perm {other : List σ} (hperm : signals.Perm other)
    (hagree : ∀ left right, report left ∈ signals → report right ∈ signals → left = right) :
    other.findSome? reads = signals.findSome? reads := by
  have hother : ∀ left right, report left ∈ other → report right ∈ other → left = right :=
    fun left right hleft hright => hagree left right (hperm.mem_iff.mpr hleft) (hperm.mem_iff.mpr hright)
  apply Option.ext
  intro value
  rw [findSome?_eq_some_iff_mem hreport hagree, findSome?_eq_some_iff_mem hreport hother, hperm.mem_iff]

end Report

end JobFlow.Positions
