import EntityForge.Proofs.Names

/-!
Lowering what has been lowered.

A character is lowered to characters that stay as they are: none of them is a capital of ASCII, and no entry of the
table names one of them. So a text in kebab or snake case has no place left where a word begins, and it is written
in that case as it stands. Main statements: `isLowered_of_mem_lowerChar` and `spellings_idempotent`.
-/

namespace EntityForge

namespace Text

/-- A character that lowering leaves alone, and at which no word begins. -/
def IsLowered (c : Char) : Prop := lowerChar c = [c] ∧ isAsciiUpper c = false

instance (c : Char) : Decidable (IsLowered c) := inferInstanceAs (Decidable (_ ∧ _))

theorem not_isAsciiUpper {c : Char} (h : 90 < c.toNat) : isAsciiUpper c = false := by
  rw [← Bool.not_eq_true]
  intro hupper
  exact absurd h (Nat.not_lt.2 (toNat_of_upper hupper).2)

theorem isLowered_of_ascii {c : Char} (hascii : c.toNat < 128) (hupper : isAsciiUpper c = false) : IsLowered c :=
  ⟨lowerChar_of_ascii hascii hupper, hupper⟩

theorem isLowered_of_lower {c : Char} (h : isAsciiLower c = true) : IsLowered c := by
  have hrange : 97 ≤ c.toNat ∧ c.toNat ≤ 122 := by
    simpa [isAsciiLower, Char.le_def, UInt32.le_iff_toNat_le] using h
  exact isLowered_of_ascii (by omega) (not_isAsciiUpper (by omega))

namespace CaseRun

variable {run other : CaseRun} {code : Nat}

theorem covers_iff :
    run.covers code = true ↔ run.first ≤ code ∧ code ≤ run.last ∧ (code - run.first) % run.step = 0 := by
  simp [covers, and_assoc]

/-- Nothing that the run leads to is covered by the other one, which ends before, begins behind, or goes by twos
where the run does too. -/
def misses (run other : CaseRun) : Bool :=
  Nat.blt (run.apply run.last) other.first || Nat.blt other.last (run.apply run.first) ||
    ((run.step == 2 || run.first == run.last) && other.step == 2 &&
      (run.apply run.first + other.first) % 2 == 1)

theorem not_covers_of_misses (habove : 0 ≤ (run.first : Int) + run.shift) (h : run.misses other = true)
    (hcode : run.covers code = true) : other.covers (run.apply code) = false := by
  obtain ⟨hfirst, hlast, hstep⟩ := covers_iff.1 hcode
  rw [← Bool.not_eq_true, covers_iff]
  rintro ⟨hbegin, hend, hother⟩
  simp only [misses, Bool.or_eq_true, Bool.and_eq_true, Nat.blt_eq, beq_iff_eq, apply] at *
  rcases h with (h | h) | ⟨⟨hrun, htwo⟩, hodd⟩
  · omega
  · omega
  · rw [htwo] at hother
    rcases hrun with hrun | hrun
    · rw [hrun] at hstep
      omega
    · omega

end CaseRun

theorem lowerRuns_misses : (lowerRuns.all fun run => lowerRuns.all run.misses) = true := by decide +kernel

/-- The characters with several images are met by no run. -/
theorem lowerExpansions_misses :
    ∀ run ∈ lowerRuns, ∀ entry ∈ lowerExpansions, run.misses ⟨entry.1, entry.1, 1, 0⟩ = true := by decide +kernel

theorem isLowered_of_mem_expansion :
    ∀ entry ∈ lowerExpansions, ∀ code ∈ entry.2, IsLowered (Char.ofNat code) := by decide +kernel

/-- A code beyond the capitals of ASCII that the table does not name. -/
theorem isLowered_of_uncovered {code : Nat} (habove : 105 ≤ code) (hlookup : lowerExpansions.lookup code = none)
    (huncovered : ∀ run ∈ lowerRuns, run.covers code = false) : IsLowered (Char.ofNat code) := by
  by_cases hvalid : code.isValidChar
  · have hcode : (Char.ofNat code).toNat = code := by
      rw [Char.ofNat, dif_pos hvalid]
      rfl
    have hupper : isAsciiUpper (Char.ofNat code) = false := not_isAsciiUpper (by omega)
    by_cases hascii : code < 128
    · exact isLowered_of_ascii (hcode.symm ▸ hascii) hupper
    · refine ⟨?_, hupper⟩
      have hfind : lowerRuns.find? (·.covers code) = none := by
        rw [List.find?_eq_none]
        intro run hrun
        rw [huncovered run hrun]
        exact Bool.false_ne_true
      rw [lowerChar, hcode, if_neg hascii, mapBeyondAscii, hcode, hlookup, hfind]
  · rw [Char.ofNat, dif_neg hvalid]
    decide

theorem isLowered_of_run {run : CaseRun} {code : Nat} (hrun : run ∈ lowerRuns) (hcode : run.covers code = true) :
    IsLowered (Char.ofNat (run.apply code)) := by
  have habove := lowerRuns_above run hrun
  have hmisses (other : CaseRun) (h : run.misses other = true) : other.covers (run.apply code) = false :=
    CaseRun.not_covers_of_misses (by omega) h hcode
  apply isLowered_of_uncovered
  · have hfirst := (CaseRun.covers_iff.1 hcode).1
    unfold CaseRun.apply
    omega
  · rw [List.lookup_eq_none_iff]
    intro entry hentry
    have hkey := hmisses _ (lowerExpansions_misses run hrun entry hentry)
    rw [← Bool.not_eq_true, CaseRun.covers_iff] at hkey
    rw [bne_iff_ne]
    intro hsame
    exact hkey ⟨hsame ▸ Nat.le_refl _, hsame ▸ Nat.le_refl _, Nat.mod_one _⟩
  · intro other hother
    exact hmisses other (List.all_eq_true.1 (List.all_eq_true.1 lowerRuns_misses run hrun) other hother)

theorem isLowered_of_mem_lowerChar {c d : Char} (h : d ∈ lowerChar c) : IsLowered d := by
  by_cases hascii : c.toNat < 128
  · cases hupper : isAsciiUpper c with
    | true =>
      have hrange := toNat_of_upper hupper
      rw [lowerChar_of_upper hupper, List.mem_singleton] at h
      have hcode := toNat_lowered hupper
      rw [← h] at hcode
      exact isLowered_of_ascii (by omega) (not_isAsciiUpper (by omega))
    | false =>
      rw [lowerChar_of_ascii hascii hupper, List.mem_singleton] at h
      rw [h]
      exact isLowered_of_ascii hascii hupper
  · rw [lowerChar, if_neg hascii, mapBeyondAscii] at h
    split at h
    · next codes hlookup =>
      obtain ⟨before, after, hentries, -⟩ := List.lookup_eq_some_iff.1 hlookup
      obtain ⟨code, hcode, rfl⟩ := List.mem_map.1 h
      exact isLowered_of_mem_expansion (c.toNat, codes) (by rw [hentries]; simp) code hcode
    · next hlookup =>
      split at h
      · next run hfind =>
        have hcovers := List.find?_some hfind
        rw [List.mem_singleton.1 h]
        exact isLowered_of_run (List.mem_of_find?_eq_some hfind) hcovers
      · next hfind =>
        rw [List.mem_singleton.1 h, ← Char.ofNat_toNat c]
        exact isLowered_of_uncovered (by omega) hlookup (by simpa using hfind)

end Text

namespace Identifier

open Text

variable {separator : Char} {before : Option Char} {cs : List Char}

/-- A text with no capitals to lower, and so with no place where a word begins. -/
theorem splitWords_of_isLowered (h : ∀ c ∈ cs, IsLowered c) : splitWords separator before cs = cs := by
  induction cs generalizing before with
  | nil => exact splitWords_nil before
  | cons c cs ih =>
    obtain ⟨⟨hlower, hupper⟩, hcs⟩ := List.forall_mem_cons.1 h
    obtain ⟨gap, -, hgap, hwords⟩ := splitWords_cons separator before c
    rw [hwords, hgap (Or.inr hupper), hlower, ih hcs]
    rfl

theorem isLowered_of_mem_splitWords (hseparator : IsLowered separator) :
    ∀ c ∈ splitWords separator before cs, IsLowered c := by
  induction cs generalizing before with
  | nil => simp
  | cons c cs ih =>
    obtain ⟨gap, hgap, -, hwords⟩ := splitWords_cons separator before c
    rw [hwords, List.forall_mem_append, List.forall_mem_append]
    refine ⟨⟨?_, fun d => isLowered_of_mem_lowerChar⟩, ih⟩
    rcases hgap with rfl | rfl
    · simp
    · simpa using hseparator

theorem splitWords_splitWords (hseparator : IsLowered separator) (before before' : Option Char) (cs : List Char) :
    splitWords separator before (splitWords separator before' cs) = splitWords separator before' cs :=
  splitWords_of_isLowered (isLowered_of_mem_splitWords hseparator)

/-- A name in kebab case is its own kebab case, and one in snake case its own snake case. -/
theorem spellings_idempotent (s : String) : kebab (kebab s) = kebab s ∧ snake (snake s) = snake s := by
  simp only [kebab, snake, String.toList_ofList]
  rw [splitWords_splitWords (by decide), splitWords_splitWords (by decide)]
  exact ⟨rfl, rfl⟩

end Identifier

end EntityForge
