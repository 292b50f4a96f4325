import Fable.Text.Case
import Fable.Text.Typed
import Mathlib.Order.Basic

namespace Fable.Text

def IsWord (w : String) : Prop := w.toList ≠ [] ∧ ∀ c ∈ w.toList, isBlank c = false

instance (w : String) : Decidable (IsWord w) :=
  decidable_of_iff (w.toList ≠ [] ∧ w.toList.all fun c ↦ !isBlank c) (by simp [IsWord])

/-- The words one after the other, with blanks between them and possibly in front and behind. -/
inductive Spaced : List String → List Char → Prop
  | nil {gap : List Char} (hgap : ∀ c ∈ gap, isBlank c) : Spaced [] gap
  | cons {gap rest : List Char} {w : String} {ws : List String}
      (hgap : ∀ c ∈ gap, isBlank c) (hw : IsWord w) (hend : ∀ c ∈ rest.head?, isBlank c)
      (hrest : Spaced ws rest) : Spaced (w :: ws) (gap ++ (w.toList ++ rest))

section

variable {c : Char} {cs rest gap : List Char} {ws : List String} {w : String}

theorem wordsOf_cons_of_isBlank (hc : isBlank c) (cs : List Char) :
    wordsOf (c :: cs) = wordsOf cs := by
  cases cs with
  | nil => simp only [wordsOf, if_pos hc]
  | cons d cs => rw [wordsOf, if_pos hc]

theorem wordsOf_gap (hgap : ∀ c ∈ gap, isBlank c) (cs : List Char) :
    wordsOf (gap ++ cs) = wordsOf cs := by
  induction gap with
  | nil => rfl
  | cons c gap ih =>
    rw [List.cons_append, wordsOf_cons_of_isBlank (hgap c List.mem_cons_self)]
    exact ih fun d hd ↦ hgap d (List.mem_cons_of_mem c hd)

/-- A run without blanks is a word if it ends with the line or in front of a blank. -/
theorem wordsOf_run (hne : cs ≠ []) (hcs : ∀ c ∈ cs, isBlank c = false)
    (hend : ∀ c ∈ rest.head?, isBlank c) :
    wordsOf (cs ++ rest) = cs :: wordsOf rest := by
  induction cs with
  | nil => exact absurd rfl hne
  | cons c cs ih =>
    have hc : ¬ isBlank c = true := by simp [hcs c List.mem_cons_self]
    cases cs with
    | nil =>
      cases rest with
      | nil => simp [wordsOf, hc]
      | cons d rest =>
        have hd : isBlank d = true := hend d rfl
        simp only [List.cons_append, List.nil_append, wordsOf, if_neg hc, if_pos hd]
    | cons d cs =>
      have hd : ¬ isBlank d = true := by simp [hcs d (by simp)]
      have htail := ih (List.cons_ne_nil d cs) fun e he ↦ hcs e (List.mem_cons_of_mem c he)
      rw [List.cons_append] at htail
      simp only [List.cons_append, wordsOf, if_neg hc, if_neg hd, htail]

theorem Spaced.wordsOf_eq (h : Spaced ws cs) : wordsOf cs = ws.map String.toList := by
  induction h with
  | nil hgap =>
    have hall := wordsOf_gap hgap []
    rwa [List.append_nil] at hall
  | cons hgap hw hend _ ih => rw [wordsOf_gap hgap, wordsOf_run hw.1 hw.2 hend, ih, List.map_cons]

theorem Spaced.words_eq {line : String} (h : Spaced ws line.toList) : words line = ws := by
  rw [words, h.wordsOf_eq, List.map_map]
  simp [Function.comp_def]

theorem Spaced.blank (h : Spaced ws cs) (hc : isBlank c) : Spaced ws (c :: cs) := by
  cases h with
  | nil hgap => exact .nil (List.forall_mem_cons.2 ⟨hc, hgap⟩)
  | cons hgap hw hend hrest =>
    rw [← List.cons_append]
    exact .cons (List.forall_mem_cons.2 ⟨hc, hgap⟩) hw hend hrest

theorem spaced_singleton (hw : IsWord w) : Spaced [w] w.toList := by
  have h : Spaced [w] ([] ++ (w.toList ++ [])) := .cons (by simp) hw (by simp) (.nil (by simp))
  rwa [List.nil_append, List.append_nil] at h

theorem spaced_pair {v : String} (hv : IsWord v) (hw : IsWord w) :
    Spaced [v, w] (v ++ " " ++ w).toList := by
  have hsecond : Spaced [w] ([' '] ++ w.toList) := (spaced_singleton hw).blank (by decide)
  have h : Spaced [v, w] ([] ++ (v.toList ++ ([' '] ++ w.toList))) :=
    .cons (by simp) hv (by simp [show isBlank ' ' = true by decide]) hsecond
  simpa using h

/-- A line that does not start with a blank starts with its first word. -/
theorem Spaced.exists_append {d : Char} (h : Spaced ws (d :: cs)) (hd : isBlank d = false) :
    ∃ v vs rest, ws = v :: vs ∧ d :: cs = v.toList ++ rest ∧ IsWord v ∧
      (∀ e ∈ rest.head?, isBlank e) ∧
      Spaced vs rest := by
  generalize hds : d :: cs = ds at h
  cases h with
  | nil hgap => simp [hgap d (by simp [← hds])] at hd
  | @cons gap rest v vs hgap hv hend hrest =>
    cases gap with
    | nil => exact ⟨v, vs, rest, rfl, rfl, hv, hend, hrest⟩
    | cons e gap =>
      obtain ⟨rfl, -⟩ := List.cons.inj hds
      simp [hgap d List.mem_cons_self] at hd

theorem Spaced.run {run : List Char} (h : Spaced ws rest) (hne : run ≠ [])
    (hrun : ∀ c ∈ run, isBlank c = false) (hend : ∀ c ∈ rest.head?, isBlank c) :
    Spaced (String.ofList run :: ws) (run ++ rest) := by
  have hw : IsWord (String.ofList run) := by
    rw [IsWord, String.toList_ofList]
    exact ⟨hne, hrun⟩
  have hall : Spaced (String.ofList run :: ws) ([] ++ ((String.ofList run).toList ++ rest)) :=
    .cons (by simp) hw hend h
  rwa [String.toList_ofList] at hall

theorem spaced_wordsOf (cs : List Char) : Spaced ((wordsOf cs).map String.ofList) cs := by
  fun_induction wordsOf cs with
  | case1 => exact .nil (by simp)
  | case2 c hc => exact .nil (by simpa using hc)
  | case3 c hc =>
    have hrun : ∀ e ∈ [c], isBlank e = false := by simpa using hc
    have hend : Spaced [] [] := .nil (by simp)
    exact hend.run (List.cons_ne_nil c []) hrun (by simp)
  | case4 c d cs hc ih => exact ih.blank hc
  | case5 c d cs hc hd ih =>
    have hrun : ∀ e ∈ [c], isBlank e = false := by simpa using hc
    exact ih.run (List.cons_ne_nil c []) hrun (by simpa using hd)
  | case6 c d cs hc hd hnil ih =>
    rw [hnil] at ih
    obtain ⟨v, vs, rest, hws, -⟩ := ih.exists_append (by simpa using hd)
    cases hws
  | case7 c d cs hc hd w ws hws ih =>
    rw [hws] at ih
    obtain ⟨v, vs, rest, heq, hcs, hv, hend, hrest⟩ := ih.exists_append (by simpa using hd)
    obtain ⟨rfl, rfl⟩ := List.cons.inj heq
    rw [String.toList_ofList] at hcs
    have hrun : ∀ e ∈ c :: w, isBlank e = false := by
      rw [IsWord, String.toList_ofList] at hv
      exact List.forall_mem_cons.2 ⟨by simpa using hc, hv.2⟩
    rw [hcs]
    exact hrest.run (List.cons_ne_nil c w) hrun hend

theorem spaced_iff {line : String} : Spaced ws line.toList ↔ words line = ws := by
  constructor
  · exact fun h ↦ h.words_eq
  · intro h
    subst h
    exact spaced_wordsOf line.toList

end

def IsAscii (s : String) : Prop := ∀ c ∈ s.toList, c.toNat < 128

instance (s : String) : Decidable (IsAscii s) :=
  decidable_of_iff (s.toList.all fun c ↦ c.toNat < 128) (by simp [IsAscii])

theorem forall_ascii {P : Char → Prop} (h : ∀ n < 128, P (Char.ofNat n)) {c : Char}
    (hc : c.toNat < 128) : P c := by
  have hofNat := h c.toNat hc
  rwa [Char.ofNat_toNat] at hofNat

theorem lowerChar_of_ascii {c : Char} (hc : c.toNat < 128) :
    Case.lowerChar c = [c.toLower] := if_pos hc

theorem upperChar_of_ascii {c : Char} (hc : c.toNat < 128) :
    Case.upperChar c = [c.toUpper] := if_pos hc

theorem toNat_toLower_lt {c : Char} (hc : c.toNat < 128) : c.toLower.toNat < 128 :=
  forall_ascii (P := fun c ↦ c.toLower.toNat < 128) (by decide) hc

/-- Away from capital sigmas the case of a character does not depend on those around it. -/
theorem lowerFrom_eq_flatMap {cs : List Char} (h : 'Σ' ∉ cs) (before : List Char) :
    Case.lowerFrom before cs = cs.flatMap Case.lowerChar := by
  induction cs generalizing before with
  | nil => rfl
  | cons c cs ih =>
    obtain ⟨hc, hcs⟩ := not_or.1 (mt List.mem_cons.2 h)
    rw [Case.lowerFrom, if_neg (Ne.symm hc), ih hcs, List.flatMap_cons]

theorem flatMap_singleton_of_mem {cs : List Char} {f : Char → List Char} {g : Char → Char}
    (h : ∀ c ∈ cs, f c = [g c]) : cs.flatMap f = cs.map g := by
  induction cs with
  | nil => rfl
  | cons c cs ih =>
    rw [List.flatMap_cons, h c List.mem_cons_self, ih fun d hd ↦ h d (List.mem_cons_of_mem c hd)]
    rfl

section

variable {s : String}

theorem IsAscii.notMem_sigma (h : IsAscii s) : 'Σ' ∉ s.toList := by
  intro hmem
  have hlt := h _ hmem
  revert hlt
  decide

theorem IsAscii.toList_lower (h : IsAscii s) : (lower s).toList = s.toList.map Char.toLower := by
  rw [lower, String.toList_ofList, lowerFrom_eq_flatMap h.notMem_sigma]
  exact flatMap_singleton_of_mem fun c hc ↦ lowerChar_of_ascii (h c hc)

theorem IsAscii.toList_upper (h : IsAscii s) : (upper s).toList = s.toList.map Char.toUpper := by
  rw [upper, String.toList_ofList]
  exact flatMap_singleton_of_mem fun c hc ↦ upperChar_of_ascii (h c hc)

theorem IsAscii.lower (h : IsAscii s) : IsAscii (lower s) := by
  intro c hc
  rw [h.toList_lower] at hc
  obtain ⟨d, hd, rfl⟩ := List.mem_map.1 hc
  exact toNat_toLower_lt (h d hd)

/-- Small letters do not change what the capital letters are. -/
theorem IsAscii.upper_lower (h : IsAscii s) : upper (Text.lower s) = upper s := by
  rw [← String.toList_inj, h.lower.toList_upper, h.toList_lower, h.toList_upper, List.map_map]
  exact List.map_congr_left fun c hc ↦
    forall_ascii (P := fun c ↦ c.toLower.toUpper = c.toUpper) (by decide) (h c hc)

end

def blankCodes : List Nat :=
  List.range' 9 5 ++ List.range' 28 5 ++ [0x85, 0xa0, 0x1680] ++ List.range' 0x2000 11 ++
    [0x2028, 0x2029, 0x202f, 0x205f, 0x3000]

theorem toNat_mem_blankCodes {c : Char} (h : isBlank c) : c.toNat ∈ blankCodes := by
  simp only [isBlank, Bool.or_eq_true, Bool.and_eq_true, decide_eq_true_eq, beq_iff_eq] at h
  simp only [blankCodes, List.mem_append, List.mem_range'_1, List.mem_cons,
    List.not_mem_nil, or_false]
  omega

/-- The table of small letters has nothing for blanks. -/
theorem mapped_of_mem_blankCodes {n : Nat} (h : n ∈ blankCodes) :
    Case.mapped Case.lowerRuns Case.lowerLong (Char.ofNat n) = [Char.ofNat n] := by
  have hcode : (Char.ofNat n).toNat = n :=
    (by decide : ∀ n ∈ blankCodes, (Char.ofNat n).toNat = n) n h
  have hruns : ∀ r ∈ Case.lowerRuns.toList, ∀ b ∈ blankCodes, r.map? b = none := by decide +kernel
  have hlong : ∀ b ∈ blankCodes, (Case.lowerLong.find? (·.1 == b)).isNone := by decide +kernel
  have hnone : Case.lowerRuns.findSome? (·.map? n) = none :=
    Array.findSome?_eq_none_iff.2 fun r hr ↦ hruns r hr.val n h
  rw [Case.mapped, hcode, hnone, Option.isNone_iff_eq_none.1 (hlong n h)]

theorem lowerChar_of_isBlank {c : Char} (h : isBlank c) : Case.lowerChar c = [c] := by
  have hmem := toNat_mem_blankCodes h
  rw [Case.lowerChar]
  split
  · next hascii =>
    have hall : ∀ n ∈ blankCodes, n < 128 → (Char.ofNat n).toLower = Char.ofNat n := by decide
    have hlower := hall c.toNat hmem hascii
    rw [Char.ofNat_toNat] at hlower
    rw [hlower]
  · have hmapped := mapped_of_mem_blankCodes hmem
    rwa [Char.ofNat_toNat] at hmapped

theorem isBlank_ofNat {n : Nat} (h : n ∉ blankCodes) : isBlank (Char.ofNat n) = false := by
  by_contra hblank
  rw [Bool.not_eq_false] at hblank
  have hmem := toNat_mem_blankCodes hblank
  by_cases hvalid : n.isValidChar
  · rw [Char.ofNat, dif_pos hvalid] at hmem
    exact h hmem
  · rw [Char.ofNat, dif_neg hvalid] at hmem
    revert hmem
    decide

/-- No run of the table leads to a blank. -/
theorem notMem_blankCodes_of_map? {r : Case.Run} (hr : r ∈ Case.lowerRuns) {c n : Nat}
    (h : r.map? c = some n) :
    n ∉ blankCodes := by
  have hall : ∀ r ∈ Case.lowerRuns.toList, ∀ b ∈ blankCodes,
      b < r.target ∨ r.target + (r.last - r.first) < b := by
    decide +kernel
  rw [Case.Run.map?] at h
  split at h
  · next hin =>
    intro hmem
    obtain rfl := Option.some.inj h
    have hapart := hall r hr.val _ hmem
    omega
  · cases h

/-- Small letters are never blank, and they are never nothing. -/
theorem lowerChar_of_not_isBlank {c : Char} (h : isBlank c = false) :
    Case.lowerChar c ≠ [] ∧ ∀ d ∈ Case.lowerChar c, isBlank d = false := by
  by_cases hascii : c.toNat < 128
  · rw [lowerChar_of_ascii hascii]
    have hlower : isBlank c = false → isBlank c.toLower = false :=
      forall_ascii (P := fun c ↦ isBlank c = false → isBlank c.toLower = false) (by decide) hascii
    simpa using hlower h
  · rw [Case.lowerChar, if_neg hascii, Case.mapped]
    split
    · next n hn =>
      obtain ⟨r, hr, hmap⟩ := Array.exists_of_findSome?_eq_some hn
      simpa using isBlank_ofNat (notMem_blankCodes_of_map? hr hmap)
    · split
      · next k cs hlong =>
        have hall : ∀ e ∈ Case.lowerLong, e.2 ≠ [] ∧ ∀ n ∈ e.2, n ∉ blankCodes := by decide +kernel
        have he := hall _ (Array.mem_of_find?_eq_some hlong)
        refine ⟨by simpa using he.1, fun d hd ↦ ?_⟩
        obtain ⟨n, hn, rfl⟩ := List.mem_map.1 hd
        exact isBlank_ofNat (he.2 n hn)
      · simpa using h

theorem lowerFrom_of_not_isBlank {cs : List Char}
    (hcs : ∀ c ∈ cs, isBlank c = false) (before : List Char) :
    ∀ d ∈ Case.lowerFrom before cs, isBlank d = false := by
  induction cs generalizing before with
  | nil => simp [Case.lowerFrom]
  | cons c cs ih =>
    intro d hd
    rw [Case.lowerFrom, List.mem_append] at hd
    rcases hd with hd | hd
    · split at hd
      · split at hd <;> rw [List.mem_singleton.1 hd] <;> decide
      · exact (lowerChar_of_not_isBlank (hcs c List.mem_cons_self)).2 d hd
    · exact ih (fun e he ↦ hcs e (List.mem_cons_of_mem c he)) _ d hd

theorem lowerFrom_ne_nil {cs : List Char} (hne : cs ≠ [])
    (hcs : ∀ c ∈ cs, isBlank c = false) (before : List Char) :
    Case.lowerFrom before cs ≠ [] := by
  cases cs with
  | nil => exact absurd rfl hne
  | cons c cs =>
    rw [Case.lowerFrom]
    intro hnil
    have hhere := (List.append_eq_nil_iff.1 hnil).1
    split at hhere
    · split at hhere <;> cases hhere
    · exact (lowerChar_of_not_isBlank (hcs c List.mem_cons_self)).1 hhere

theorem IsWord.lower {w : String} (h : IsWord w) : IsWord (lower w) := by
  rw [IsWord, Text.lower, String.toList_ofList]
  exact ⟨lowerFrom_ne_nil h.1 h.2 [], lowerFrom_of_not_isBlank h.2 []⟩

theorem words_lower {w : String} (h : IsWord w) : words (lower w) = [lower w] :=
  (spaced_singleton h.lower).words_eq

/-- Small letters leave the blanks of a line where they are, if its words are ASCII. -/
theorem Spaced.lower {ws : List String} {cs : List Char} (h : Spaced ws cs)
    (hws : ∀ w ∈ ws, IsAscii w) :
    Spaced (ws.map Text.lower) (Case.lowerFrom [] cs) := by
  have hsigma : 'Σ' ∉ cs := by
    induction h with
    | nil hgap => exact fun hmem ↦ absurd (hgap _ hmem) (by decide)
    | @cons gap rest w ws hgap hw hend hrest ih =>
      simp only [List.mem_append, not_or]
      exact ⟨fun hmem ↦ absurd (hgap _ hmem) (by decide), (hws w List.mem_cons_self).notMem_sigma,
        ih fun v hv ↦ hws v (List.mem_cons_of_mem w hv)⟩
  have hgaps {gap : List Char} (hgap : ∀ c ∈ gap, isBlank c) : gap.flatMap Case.lowerChar = gap :=
    (flatMap_singleton_of_mem (g := id) fun c hc ↦ lowerChar_of_isBlank (hgap c hc)).trans
      (List.map_id gap)
  rw [lowerFrom_eq_flatMap hsigma]
  clear hsigma
  induction h with
  | nil hgap =>
    rw [hgaps hgap]
    exact .nil hgap
  | @cons gap rest w ws hgap hw hend hrest ih =>
    have hascii := hws w List.mem_cons_self
    have hword : w.toList.flatMap Case.lowerChar = (Text.lower w).toList := by
      rw [hascii.toList_lower]
      exact flatMap_singleton_of_mem fun c hc ↦ lowerChar_of_ascii (hascii c hc)
    rw [List.flatMap_append, List.flatMap_append, hgaps hgap, hword]
    refine .cons hgap hw.lower ?_ (ih fun v hv ↦ hws v (List.mem_cons_of_mem w hv))
    cases rest with
    | nil => simp
    | cons c rest =>
      rw [List.flatMap_cons, lowerChar_of_isBlank (hend c rfl)]
      exact hend

end Fable.Text
