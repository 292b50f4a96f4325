import Fable.Proofs.Printing

namespace Fable

namespace Text

theorem unifyEnds_cons {c : Char} (hc : c ≠ '\r') (cs : List Char) :
    unifyEnds (c :: cs) = c :: unifyEnds cs := by
  rw [unifyEnds, if_neg hc]
  intro ds h _
  exact hc h

theorem unifyEnds_eq {cs : List Char} (h : '\r' ∉ cs) : unifyEnds cs = cs := by
  induction cs with
  | nil => rfl
  | cons c cs ih =>
    obtain ⟨hc, hcs⟩ : '\r' ≠ c ∧ '\r' ∉ cs := by simpa using h
    rw [unifyEnds_cons hc.symm, ih hcs]

theorem unifyLineEnds_eq {s : String} (h : '\r' ∉ s.toList) : unifyLineEnds s = s := by
  rw [unifyLineEnds, unifyEnds_eq h, String.ofList_toList]

theorem exists_unifyEnds_return (cs : List Char) : ∃ ds, unifyEnds ('\r' :: cs) = '\n' :: ds := by
  cases cs with
  | nil => exact ⟨_, rfl⟩
  | cons c cs =>
    by_cases hc : c = '\n'
    · subst hc
      exact ⟨_, rfl⟩
    · refine ⟨unifyEnds (c :: cs), ?_⟩
      rw [unifyEnds, if_pos rfl]
      intro ds _ h
      exact hc (List.cons.inj h).1

/-- What stands at the front: nothing, the end of a line, or a character that is left as it is. -/
@[elab_as_elim]
theorem lineEnd_cases {motive : List Char → Prop} (cs : List Char) (nil : motive [])
    (lineEnd : ∀ cs ds, unifyEnds ('\r' :: cs) = '\n' :: ds → motive ('\r' :: cs))
    (char : ∀ c cs, c ≠ '\r' → unifyEnds (c :: cs) = c :: unifyEnds cs → motive (c :: cs)) :
    motive cs := by
  cases cs with
  | nil => exact nil
  | cons c cs =>
    by_cases hc : c = '\r'
    · subst hc
      obtain ⟨ds, hds⟩ := exists_unifyEnds_return cs
      exact lineEnd cs ds hds
    · exact char c cs hc (unifyEnds_cons hc cs)

/-- A character that is left and ends no line was there. -/
theorem eq_cons_of_unifyEnds {cs ds : List Char} {c : Char}
    (h : unifyEnds cs = c :: ds) (hc : c ≠ '\n') :
    ∃ es, cs = c :: es ∧ unifyEnds es = ds := by
  cases cs using lineEnd_cases with
  | nil => cases h
  | lineEnd es fs hfs => exact absurd (List.cons.inj (h.symm.trans hfs)).1 hc
  | char d es _ hes =>
    cases hes.symm.trans h
    exact ⟨es, rfl, rfl⟩

theorem unifyEnds_eq_nil {cs : List Char} : unifyEnds cs = [] ↔ cs = [] := by
  refine ⟨fun h ↦ ?_, fun h ↦ by rw [h]; rfl⟩
  cases cs using lineEnd_cases with
  | nil => rfl
  | lineEnd cs ds hds => cases hds.symm.trans h
  | char c cs _ hcs => cases hcs.symm.trans h

theorem head?_unifyEnds {c : Char} (hr : c ≠ '\r') (hn : c ≠ '\n') (cs : List Char) :
    (unifyEnds cs).head? = some c ↔ cs.head? = some c := by
  cases cs using lineEnd_cases with
  | nil => exact Iff.rfl
  | lineEnd cs ds hds => simp [hds, hr.symm, hn.symm]
  | char d cs _ hcs => rw [hcs]; exact Iff.rfl

theorem length_unifyEnds_le_cons (c : Char) (cs : List Char) :
    (unifyEnds cs).length ≤ (unifyEnds (c :: cs)).length := by
  by_cases hc : c = '\r' ∧ ∃ ds, cs = '\n' :: ds
  · obtain ⟨rfl, ds, rfl⟩ := hc
    rw [unifyEnds_cons (by decide)]
    exact le_rfl
  · rw [unifyEnds]
    · exact Nat.le_succ _
    · intro ds hd hds
      exact hc ⟨hd, ds, hds⟩

theorem length_unifyEnds_le {cs rest : List Char} (h : rest <:+ cs) :
    (unifyEnds rest).length ≤ (unifyEnds cs).length := by
  induction cs with
  | nil => rw [List.suffix_nil.1 h]
  | cons c cs ih =>
    rcases List.suffix_cons_iff.1 h with rfl | h
    · exact le_rfl
    · exact (ih h).trans (length_unifyEnds_le_cons c cs)

variable {p : Char → Bool}

/-- The characters of a kind at the front, if no end of a line is of the kind, are the same. -/
theorem takeWhile_unifyEnds (hr : p '\r' = false) (hn : p '\n' = false) (cs : List Char) :
    (unifyEnds cs).takeWhile p = cs.takeWhile p ∧
    (unifyEnds cs).dropWhile p = unifyEnds (cs.dropWhile p) := by
  induction cs with
  | nil => exact ⟨rfl, rfl⟩
  | cons c cs ih =>
    by_cases hc : c = '\r'
    · subst hc
      obtain ⟨ds, hds⟩ := exists_unifyEnds_return cs
      simp [hds, hr, hn]
    · rw [unifyEnds_cons hc]
      cases hp : p c with
      | true => simp [hp, ih]
      | false => simp [hp, unifyEnds_cons hc]

end Text

namespace Json

open Text

theorem skip_unifyEnds (cs : List Char) : skip (unifyEnds cs) = unifyEnds (skip cs) := by
  induction cs using unifyEnds.induct with
  | case1 => rfl
  | case2 cs ih => exact ih
  | case3 c cs h ih =>
    rw [unifyEnds]
    · by_cases hc : c = '\r'
      · subst hc
        simpa [skip, isSpace] using ih
      · rw [if_neg hc]
        cases hs : isSpace c with
        | true => simpa [skip, hs] using ih
        | false => simp [skip, hs, unifyEnds_cons hc]
    · exact h

/-- At least `k` characters stand before these, with line ends made alike and without. -/
structure Later (k : Nat) (rest cs : List Char) : Prop where
  suffix : rest <:+ cs
  length : rest.length + k ≤ cs.length
  unified : (unifyEnds rest).length + k ≤ (unifyEnds cs).length

theorem Later.of_suffix {rest cs : List Char} (h : rest <:+ cs) : Later 0 rest cs :=
  ⟨h, h.length_le, length_unifyEnds_le h⟩

theorem Later.trans {k l : Nat} {cs ds es : List Char} (h : Later k cs ds) (h' : Later l ds es) :
    Later (k + l) cs es := by
  obtain ⟨hsuffix, hlength, hunified⟩ := h
  obtain ⟨hsuffix', hlength', hunified'⟩ := h'
  exact ⟨hsuffix.trans hsuffix', by omega, by omega⟩

theorem later_cons {c : Char} (hc : c ≠ '\r') (cs : List Char) : Later 1 cs (c :: cs) :=
  ⟨List.suffix_cons c cs, le_rfl, by rw [unifyEnds_cons hc]; exact le_rfl⟩

theorem later_skip (cs : List Char) : Later 0 (skip cs) cs :=
  .of_suffix (List.dropWhile_suffix _)

/-- What is left once blanks are skipped: nothing, or a character that is none. -/
theorem skip_cases (cs : List Char) :
    skip cs = [] ∨ ∃ c rest, skip cs = c :: rest ∧ c ≠ '\r' ∧ Later 1 rest cs := by
  cases hs : skip cs with
  | nil => exact .inl rfl
  | cons c rest =>
    have hc : c ≠ '\r' := by
      rintro rfl
      have h := List.head?_dropWhile_not isSpace cs
      rw [← skip, hs] at h
      cases h
    exact .inr ⟨c, rest, rfl, hc, (later_cons hc rest).trans (hs ▸ later_skip cs)⟩

end Json

end Fable
