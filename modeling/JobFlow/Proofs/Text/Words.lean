import JobFlow.Logging
import Mathlib

/-!
Words in letters of either case. The two readers of words trim a text and compare its lowercase form. A
character beyond ASCII may become an ASCII letter by this: the Kelvin sign a `k`, the capital dotted I an `i`
with a mark behind it. Main statement: in none of the words does that help, so the readers accept the words
in ASCII letters of either case, with white space around them, and nothing else.
-/

namespace JobFlow

namespace Text

/-- A word that is spelled with capital or with small letters. -/
def Spells (word spelled : List Char) : Prop :=
  List.Forall₂ (fun letter c => c = letter ∨ c = letter.toUpper) word spelled

/-- A text that has only white space around the spelling of a word. -/
def Says (text word : String) : Prop :=
  ∃ before spelled after, text.toList = before ++ spelled ++ after ∧ (∀ c ∈ before, isBlank c) ∧
    Spells word.toList spelled ∧ ∀ c ∈ after, isBlank c

/-! ### White space -/

theorem exists_trimStart (text : List Char) :
    ∃ before, text = before ++ trimStart text ∧ ∀ c ∈ before, isBlank c :=
  ⟨text.takeWhile isBlank, List.takeWhile_append_dropWhile.symm, fun _ hmem => List.mem_takeWhile_imp hmem⟩

/-- What is removed from a text is white space. -/
theorem exists_trim (text : List Char) : ∃ before after, text = before ++ trim text ++ after ∧
    (∀ c ∈ before, isBlank c) ∧ ∀ c ∈ after, isBlank c := by
  obtain ⟨before, hbefore, hblank⟩ := exists_trimStart text
  obtain ⟨after, hafter, hblank'⟩ := exists_trimStart (trimStart text).reverse
  refine ⟨before, after.reverse, ?_, hblank, fun c hmem => hblank' c (List.mem_reverse.mp hmem)⟩
  have hend : trimStart text = trim text ++ after.reverse := by
    rw [trim, trimEnd, ← List.reverse_append, ← hafter, List.reverse_reverse]
  rw [List.append_assoc, ← hend, ← hbefore]

theorem trimStart_append {before rest : List Char} (hbefore : ∀ c ∈ before, isBlank c)
    (hrest : ∀ c ∈ rest.head?, isBlank c = false) : trimStart (before ++ rest) = rest := by
  rw [trimStart, List.dropWhile_append_of_pos hbefore]
  cases rest with
  | nil => rfl
  | cons c rest => exact List.dropWhile_cons_of_neg (by simp [hrest c rfl])

/-- White space around a word is removed, and the word stays. -/
theorem trim_append {before word after : List Char} (hbefore : ∀ c ∈ before, isBlank c)
    (hafter : ∀ c ∈ after, isBlank c) (hne : word ≠ []) (hword : ∀ c ∈ word, isBlank c = false) :
    trim (before ++ word ++ after) = word := by
  have hstart : trimStart (before ++ word ++ after) = word ++ after := by
    rw [List.append_assoc]
    refine trimStart_append hbefore (fun c hhead => hword c (List.mem_of_mem_head? ?_))
    rwa [List.head?_append_of_ne_nil _ hne] at hhead
  have hend : trimStart (word ++ after).reverse = word.reverse := by
    rw [List.reverse_append]
    exact trimStart_append (fun c hmem => hafter c (List.mem_reverse.mp hmem))
      (fun c hhead => hword c (List.mem_reverse.mp (List.mem_of_mem_head? hhead)))
  rw [trim, hstart, trimEnd, hend, List.reverse_reverse]

/-! ### Letters -/

/-- The underscore, and the letters that only they themselves and their ASCII capitals become in lowercase. The
Kelvin sign becomes a `k` as well, so this is not one of them. -/
def plainLetters : List Char := "_abcdefghijlmnopqrstuvwxyz".toList

/-- A word of such characters. -/
def IsPlain (word : String) : Prop := word.toList ≠ [] ∧ ∀ letter ∈ word.toList, letter ∈ plainLetters

instance (word : String) : Decidable (IsPlain word) :=
  decidable_of_iff (word.toList ≠ [] ∧ word.toList.all (plainLetters.contains ·)) (by simp [IsPlain])

theorem lowerChar_of_plain {letter c : Char} (hplain : letter ∈ plainLetters)
    (hc : c = letter ∨ c = letter.toUpper) :
    lowerChar c = [letter] ∧ c ≠ 'Σ' ∧ isBlank c = false ∧ c.toNat < 128 := by
  have hall : plainLetters.all (fun letter => [letter, letter.toUpper].all (fun c =>
      lowerChar c = [letter] ∧ c ≠ 'Σ' ∧ isBlank c = false ∧ c.toNat < 128)) := by decide +kernel
  have hboth := List.all_eq_true.mp hall letter hplain
  simpa using List.all_eq_true.mp hboth c (by simpa using hc)

theorem toNat_of_plain {letter : Char} (hplain : letter ∈ plainLetters) :
    0 < letter.toNat ∧ letter.toNat < 128 := by
  have hall : plainLetters.all (fun letter => 0 < letter.toNat ∧ letter.toNat < 128) := by decide
  simpa using List.all_eq_true.mp hall letter hplain

theorem toUpper_ofNat : ∀ place < 26, (Char.ofNat (0x61 + place)).toUpper = Char.ofNat (0x41 + place) := by
  decide

/-- Only two of the runs lead into ASCII: the capitals, and the Kelvin sign. -/
theorem image_of_mem : ∀ run ∈ lowercaseRuns, run.first = 0x41 ∧ run.last = 0x5a ∧ run.image = 0x61 ∨
    run.first = run.last ∧ run.image = 0x6b ∨ 128 ≤ run.image := by
  decide +kernel

/-- A character of which plain letters become is a plain letter or its capital. -/
theorem exists_plain_of_lowerChar {c : Char} (hplain : ∀ letter ∈ lowerChar c, letter ∈ plainLetters) :
    ∃ letter, lowerChar c = [letter] ∧ (c = letter ∨ c = letter.toUpper) := by
  by_cases hdotted : c.toNat = 0x130
  · -- The mark behind the small letter is in no word.
    rw [lowerChar, if_pos hdotted] at hplain
    exact absurd (hplain _ (List.mem_cons_of_mem _ List.mem_cons_self)) (by decide)
  rw [lowerChar, if_neg hdotted] at hplain ⊢
  cases hfound : lowercaseRuns.find? (·.contains c.toNat) with
  | none => exact ⟨c, rfl, Or.inl rfl⟩
  | some run =>
      rw [hfound] at hplain
      have hletter := hplain _ List.mem_cons_self
      refine ⟨_, rfl, Or.inr ?_⟩
      have hcontains := List.find?_some hfound
      simp only [CaseRun.contains, Bool.and_eq_true, decide_eq_true_eq] at hcontains
      obtain ⟨⟨hfirst, hlast⟩, -⟩ := hcontains
      rcases image_of_mem run (List.mem_of_find?_eq_some hfound) with
        ⟨hcapitals, hend, himage⟩ | ⟨hsingle, himage⟩ | himage
      · rw [hcapitals] at hfirst
        have hplace : c.toNat - 0x41 < 26 := by omega
        rw [himage, hcapitals, toUpper_ofNat _ hplace, Nat.add_sub_cancel' hfirst, Char.ofNat_toNat]
      · -- A run of one character, which becomes a `k`.
        rw [himage, Nat.sub_eq_zero_of_le (hsingle ▸ hlast)] at hletter
        exact absurd hletter (by decide)
      · obtain ⟨hpos, hlt⟩ := toNat_of_plain hletter
        have hcode := Char.toNat_ofNat (run.image + (c.toNat - run.first))
        split at hcode <;> omega

/-! ### Words -/

theorem Spells.of_lowerAfter {before text : List Char}
    (hplain : ∀ letter ∈ lowerAfter before text, letter ∈ plainLetters) :
    Spells (lowerAfter before text) text := by
  induction text generalizing before with
  | nil => exact .nil
  | cons c rest ih =>
      rw [lowerAfter] at hplain ⊢
      obtain ⟨hfirst, hrest⟩ := List.forall_mem_append.mp hplain
      by_cases hsigma : c = 'Σ'
      · -- What becomes of a sigma depends on its neighbours, but it is never a plain letter.
        rw [if_pos hsigma] at hfirst
        have hletter := hfirst _ List.mem_cons_self
        split at hletter <;> exact absurd hletter (by decide)
      · rw [if_neg hsigma] at hfirst ⊢
        obtain ⟨letter, heq, hc⟩ := exists_plain_of_lowerChar hfirst
        rw [heq]
        exact .cons hc (ih hrest)

theorem Spells.lowerAfter_eq {word spelled : List Char} (h : Spells word spelled)
    (hplain : ∀ letter ∈ word, letter ∈ plainLetters) (before : List Char) :
    lowerAfter before spelled = word := by
  induction h generalizing before with
  | nil => rfl
  | @cons letter c word spelled hc hrest ih =>
      obtain ⟨hletter, hword⟩ := List.forall_mem_cons.mp hplain
      obtain ⟨hlower, hsigma, -⟩ := lowerChar_of_plain hletter hc
      rw [lowerAfter, if_neg hsigma, hlower, ih hword]
      rfl

/-- The characters with which a plain word is spelled. -/
theorem Spells.of_mem {word spelled : List Char} (h : Spells word spelled)
    (hplain : ∀ letter ∈ word, letter ∈ plainLetters) :
    ∀ c ∈ spelled, isBlank c = false ∧ c.toNat < 128 := by
  induction h with
  | nil => simp
  | @cons letter c word spelled hc hrest ih =>
      obtain ⟨hletter, hword⟩ := List.forall_mem_cons.mp hplain
      exact List.forall_mem_cons.mpr ⟨(lowerChar_of_plain hletter hc).2.2, ih hword⟩

/-- What remains of a text that says a word is a spelling of it. -/
theorem Says.spells_trim {text word : String} (h : Says text word) (hplain : IsPlain word) :
    Spells word.toList (trim text.toList) := by
  obtain ⟨before, spelled, after, heq, hbefore, hspells, hafter⟩ := h
  have hspelled : spelled ≠ [] := by
    rintro rfl
    exact hplain.1 (List.forall₂_nil_right_iff.mp hspells)
  rw [heq, trim_append hbefore hafter hspelled (fun c hmem => (hspells.of_mem hplain.2 c hmem).1)]
  exact hspells

theorem Says.exists_ascii {text word : String} (h : Says text word) (hplain : IsPlain word) :
    ∃ before word after, text.toList = before ++ word ++ after ∧ (∀ c ∈ before, isBlank c) ∧
      (∀ c ∈ word, c.toNat < 128) ∧ ∀ c ∈ after, isBlank c := by
  obtain ⟨before, spelled, after, heq, hbefore, hspells, hafter⟩ := h
  exact ⟨before, spelled, after, heq, hbefore, fun c hmem => (hspells.of_mem hplain.2 c hmem).2, hafter⟩

/-- The texts that are looked up as a plain word are those that say it. -/
theorem normalize_eq_iff {text word : String} (hplain : IsPlain word) :
    normalize text = word ↔ Says text word := by
  rw [normalize, lowercase, ← String.toList_inj, String.toList_ofList]
  constructor
  · intro heq
    obtain ⟨before, after, htext, hbefore, hafter⟩ := exists_trim text.toList
    exact ⟨before, _, after, htext, hbefore, heq ▸ .of_lowerAfter (heq ▸ hplain.2), hafter⟩
  · intro h
    exact (h.spells_trim hplain).lowerAfter_eq hplain.2 []

end Text

/-! ### The readers -/

theorem Gating.isPlain_text : ∀ gating : Gating, Text.IsPlain gating.text
  | sourceStarted | sourceSucceeded => by decide

theorem Gating.parse_eq_ok_iff {text : String} {gating : Gating} :
    parse text = .ok gating ↔ Text.normalize text = gating.text := by
  rw [parse]
  split <;> cases gating <;> simp_all [Gating.text]

namespace LogLevel

/-- The words for a level. -/
def words : LogLevel → List String
  | warn => ["warn", "warning"]
  | level => [level.text]

theorem isPlain_of_mem_words {level : LogLevel} {word : String} (hmem : word ∈ level.words) :
    Text.IsPlain word := by
  have hall : level.words.all (fun word => Text.IsPlain word) := by cases level <;> decide
  simpa using List.all_eq_true.mp hall word hmem

theorem parse?_eq_some_iff {text : String} {level : LogLevel} :
    parse? text = some level ↔ Text.normalize text ∈ level.words := by
  rw [parse?]
  split <;> cases level <;> simp_all [words, LogLevel.text]

end LogLevel

namespace Text

/-- A gate or a level is read from the texts that say its word, in letters of either case and with white space
around it, and from no others. So a text with a character beyond ASCII, except for surrounding white space,
names nothing, although the lowercase form of such a character may be an ASCII letter. -/
theorem reads_words (text : String) :
    (∀ gating, Gating.parse text = .ok gating ↔ Says text gating.text) ∧
    (∀ level, LogLevel.parse? text = some level ↔ ∃ word ∈ level.words, Says text word) ∧
    ((∃ gating, Gating.parse text = .ok gating) ∨ (∃ level, LogLevel.parse? text = some level) →
      ∃ before word after, text.toList = before ++ word ++ after ∧ (∀ c ∈ before, isBlank c) ∧
        (∀ c ∈ word, c.toNat < 128) ∧ ∀ c ∈ after, isBlank c) ∧
    ∃ c : Char, 128 ≤ c.toNat ∧ lowercase [c] = ['k'] := by
  have hgating : ∀ gating, Gating.parse text = .ok gating ↔ Says text gating.text := by
    intro gating
    exact Gating.parse_eq_ok_iff.trans (normalize_eq_iff gating.isPlain_text)
  have hlevel : ∀ level, LogLevel.parse? text = some level ↔ ∃ word ∈ level.words, Says text word := by
    intro level
    rw [LogLevel.parse?_eq_some_iff]
    constructor
    · intro hmem
      exact ⟨_, hmem, (normalize_eq_iff (LogLevel.isPlain_of_mem_words hmem)).mp rfl⟩
    · rintro ⟨word, hmem, hsays⟩
      exact (normalize_eq_iff (LogLevel.isPlain_of_mem_words hmem)).mpr hsays ▸ hmem
  refine ⟨hgating, hlevel, ?_, '\u212a', by decide, by decide⟩
  rintro (⟨gating, hparse⟩ | ⟨level, hparse⟩)
  · exact ((hgating gating).mp hparse).exists_ascii gating.isPlain_text
  · obtain ⟨word, hmem, hsays⟩ := (hlevel level).mp hparse
    exact hsays.exists_ascii (LogLevel.isPlain_of_mem_words hmem)

/-- A gate that is read between an ideographic space and a line break. -/
theorem reads_words_gate : Gating.parse "\u3000Source_STARTED\n" = .ok .sourceStarted ∧
    Says "\u3000Source_STARTED\n" "source_started" ∧
    ∃ before word after, "\u3000Source_STARTED\n".toList = before ++ word ++ after ∧
      (∀ c ∈ before, isBlank c) ∧ (∀ c ∈ word, c.toNat < 128) ∧ ∀ c ∈ after, isBlank c := by
  have hparse : Gating.parse "\u3000Source_STARTED\n" = .ok .sourceStarted := by decide +kernel
  obtain ⟨hgating, -, hascii, -⟩ := reads_words "\u3000Source_STARTED\n"
  exact ⟨hparse, (hgating _).mp hparse, hascii (.inl ⟨_, hparse⟩)⟩

end Text

end JobFlow
