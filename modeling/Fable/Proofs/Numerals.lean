import Fable.Proofs.LineEnds

namespace Fable

namespace Json

open Text

/-- Reads no end of a line: with line ends made alike the same is found, and what is left has them
alike too. -/
structure Scans {α : Type} (f : List Char → Option (α × List Char)) : Prop where
  unify : ∀ cs, f (unifyEnds cs) = (f cs).map fun p ↦ (p.1, unifyEnds p.2)
  suffix : ∀ {cs a rest}, f cs = some (a, rest) → rest <:+ cs

theorem takeDigits_unifyEnds (cs : List Char) :
    (unifyEnds cs).takeWhile Char.isDigit = cs.takeWhile Char.isDigit ∧
      (unifyEnds cs).dropWhile Char.isDigit = unifyEnds (cs.dropWhile Char.isDigit) :=
  takeWhile_unifyEnds (by decide) (by decide) cs

theorem scans_integer : Scans integer? where
  unify cs := by
    cases cs using lineEnd_cases with
    | nil => rfl
    | lineEnd cs ds hds => rw [hds]; rfl
    | char c cs _ hcs =>
      obtain ⟨htake, hdrop⟩ := takeDigits_unifyEnds cs
      rw [hcs, integer?, integer?, htake, hdrop]
      split
      · rfl
      · split <;> rfl
  suffix {cs a rest} h := by
    cases cs with
    | nil => cases h
    | cons c cs =>
      rw [integer?] at h
      split at h
      · cases h
        exact List.suffix_cons _ _
      · split at h
        · cases h
          exact (List.dropWhile_suffix _).trans (List.suffix_cons _ _)
        · cases h

theorem scans_fraction : Scans fraction? where
  unify cs := by
    have hnone (d : Char) (ds : List Char) (hd : d ≠ '.') : fraction? (d :: ds) = none := by
      rw [fraction?]
      rintro _ _ h
      exact hd (List.cons.inj h).1
    cases cs using lineEnd_cases with
    | nil => rfl
    | lineEnd cs ds hds => rw [hds, hnone _ _ (by decide), hnone _ _ (by decide)]; rfl
    | char c cs _ hcs =>
      rw [hcs]
      by_cases hpoint : c = '.'
      · subst hpoint
        cases cs using lineEnd_cases with
        | nil => rfl
        | lineEnd cs ds hds => rw [hds]; rfl
        | char d cs _ hds =>
          obtain ⟨htake, hdrop⟩ := takeDigits_unifyEnds (d :: cs)
          rw [hds] at htake hdrop ⊢
          rw [fraction?, fraction?, htake, hdrop]
          split <;> rfl
      · rw [hnone _ _ hpoint, hnone _ _ hpoint]
        rfl
  suffix {cs a rest} h := by
    unfold fraction? at h
    split at h
    · split at h
      · cases h
        exact (List.dropWhile_suffix _).trans (List.suffix_cons _ _)
      · cases h
    · cases h

def sign : List Char → Bool × List Char
  | '-' :: ds => (true, ds)
  | '+' :: ds => (false, ds)
  | ds => (false, ds)

theorem sign_unifyEnds (cs : List Char) :
    sign (unifyEnds cs) = ((sign cs).1, unifyEnds (sign cs).2) := by
  have hnone (d : Char) (ds : List Char) (hd : d ≠ '-' ∧ d ≠ '+') :
      sign (d :: ds) = (false, d :: ds) := by
    rw [sign]
    · rintro _ h
      exact hd.1 (List.cons.inj h).1
    · rintro _ h
      exact hd.2 (List.cons.inj h).1
  cases cs using lineEnd_cases with
  | nil => rfl
  | lineEnd cs ds hds => rw [hds, hnone _ _ (by decide), hnone _ _ (by decide), hds]
  | char c cs _ hcs =>
    rw [hcs]
    by_cases hc : c = '-' ∨ c = '+'
    · rcases hc with rfl | rfl <;> rfl
    · rw [hnone c _ (not_or.1 hc), hnone c _ (not_or.1 hc), hcs]

theorem sign_suffix (cs : List Char) : (sign cs).2 <:+ cs := by
  unfold sign
  split
  · exact List.suffix_cons _ _
  · exact List.suffix_cons _ _
  · exact List.suffix_rfl

theorem exponent?_cons (c : Char) (cs : List Char) :
    exponent? (c :: cs) = if c = 'e' ∨ c = 'E' then
      if ((sign cs).2.takeWhile Char.isDigit).isEmpty then none
      else some (Number.exponentValue (sign cs).1 ((sign cs).2.takeWhile Char.isDigit),
        (sign cs).2.dropWhile Char.isDigit)
    else none := rfl

theorem scans_exponent : Scans exponent? where
  unify cs := by
    cases cs using lineEnd_cases with
    | nil => rfl
    | lineEnd cs ds hds => rw [hds]; rfl
    | char c cs _ hcs =>
      obtain ⟨htake, hdrop⟩ := takeDigits_unifyEnds (sign cs).2
      rw [hcs, exponent?_cons, exponent?_cons, sign_unifyEnds, htake, hdrop]
      split
      · split <;> rfl
      · rfl
  suffix {cs a rest} h := by
    cases cs with
    | nil => cases h
    | cons c cs =>
      rw [exponent?_cons] at h
      split at h
      · split at h
        · cases h
        · cases h
          exact ((List.dropWhile_suffix _).trans (sign_suffix cs)).trans (List.suffix_cons c cs)
      · cases h

variable {α β : Type}

def perhaps (f : List Char → Option (α × List Char)) (cs : List Char) : Option α × List Char :=
  match f cs with
  | some (a, rest) => (some a, rest)
  | none => (none, cs)

theorem Scans.perhaps_unify {f : List Char → Option (α × List Char)}
    (hf : Scans f) (cs : List Char) :
    perhaps f (unifyEnds cs) = ((perhaps f cs).1, unifyEnds (perhaps f cs).2) := by
  rw [perhaps, perhaps, hf.unify]
  cases f cs <;> rfl

theorem Scans.perhaps_suffix {f : List Char → Option (α × List Char)}
    (hf : Scans f) (cs : List Char) :
    (perhaps f cs).2 <:+ cs := by
  rw [perhaps]
  split
  · next h => exact hf.suffix h
  · exact List.suffix_rfl

def minus : List Char → Bool × List Char
  | '-' :: ds => (true, ds)
  | ds => (false, ds)

theorem numeral?_eq (cs : List Char) :
    numeral? cs = (integer? (minus cs).2).map fun p ↦
      ({ negative := (minus cs).1, integer := p.1, fraction := (perhaps fraction? p.2).1,
         exponent := (perhaps exponent? (perhaps fraction? p.2).2).1 },
        (perhaps exponent? (perhaps fraction? p.2).2).2) := by
  unfold numeral?
  split
  next negative ds hsign =>
  have hminus : minus cs = (negative, ds) := hsign
  rw [hminus]
  cases integer? ds with
  | none => rfl
  | some p =>
    obtain ⟨integer, rest⟩ := p
    simp only [Option.bind_eq_bind, Option.bind_some, Option.map_some, perhaps]
    rcases fraction? rest with _ | ⟨fraction, rest'⟩
    · dsimp only
      rcases exponent? rest with _ | _ <;> rfl
    · dsimp only
      rcases exponent? rest' with _ | _ <;> rfl

theorem minus_unifyEnds (cs : List Char) :
    minus (unifyEnds cs) = ((minus cs).1, unifyEnds (minus cs).2) := by
  have hnone (d : Char) (ds : List Char) (hd : d ≠ '-') : minus (d :: ds) = (false, d :: ds) := by
    rw [minus]
    rintro _ h
    exact hd (List.cons.inj h).1
  cases cs using lineEnd_cases with
  | nil => rfl
  | lineEnd cs ds hds => rw [hds, hnone _ _ (by decide), hnone _ _ (by decide), hds]
  | char c cs _ hcs =>
    rw [hcs]
    by_cases hc : c = '-'
    · subst hc
      rfl
    · rw [hnone c _ hc, hnone c _ hc, hcs]

theorem minus_suffix (cs : List Char) : (minus cs).2 <:+ cs := by
  unfold minus
  split
  · exact List.suffix_cons _ _
  · exact List.suffix_rfl

theorem scans_numeral : Scans numeral? where
  unify cs := by
    rw [numeral?_eq, numeral?_eq, minus_unifyEnds, scans_integer.unify]
    cases integer? (minus cs).2 with
    | none => rfl
    | some p => simp [scans_fraction.perhaps_unify, scans_exponent.perhaps_unify]
  suffix {cs a rest} h := by
    rw [numeral?_eq] at h
    obtain ⟨p, hp, hrest⟩ := Option.map_eq_some_iff.1 h
    cases hrest
    exact (scans_exponent.perhaps_suffix _).trans ((scans_fraction.perhaps_suffix _).trans
      ((scans_integer.suffix hp).trans (minus_suffix cs)))

theorem dropPrefix?_unifyEnds {ps : List Char}
    (hps : ∀ c ∈ ps, c ≠ '\r' ∧ c ≠ '\n') (cs : List Char) :
    dropPrefix? ps (unifyEnds cs) = (dropPrefix? ps cs).map unifyEnds := by
  induction ps generalizing cs with
  | nil => rfl
  | cons p ps ih =>
    obtain ⟨⟨hr, hn⟩, hps⟩ := List.forall_mem_cons.1 hps
    cases cs using lineEnd_cases with
    | nil => rfl
    | lineEnd cs ds hds =>
      rw [hds, dropPrefix?, dropPrefix?, if_neg hr, if_neg hn]
      rfl
    | char c cs _ hcs =>
      rw [hcs, dropPrefix?, dropPrefix?]
      split
      · exact ih hps cs
      · rfl

theorem dropPrefix?_suffix {ps cs rest : List Char} (h : dropPrefix? ps cs = some rest) :
    rest <:+ cs := by
  induction ps generalizing cs with
  | nil =>
    cases h
    exact List.suffix_rfl
  | cons p ps ih =>
    cases cs with
    | nil => cases h
    | cons c cs =>
      rw [dropPrefix?] at h
      split at h
      · exact (ih h).trans (List.suffix_cons c cs)
      · cases h

mutual

/-- The value in which all that is no number is one and the same, as it is in a file. -/
def merged : Value → Value
  | .nan _ => .nan 0
  | .list xs _ => .list (mergedItems xs)
  | .dict es _ => .dict (mergedEntries es)
  | v => v

def mergedItems : List Value → List Value
  | [] => []
  | x :: xs => merged x :: mergedItems xs

def mergedEntries : List (Value × Value) → List (Value × Value)
  | [] => []
  | (k, v) :: es => (k, merged v) :: mergedEntries es

end

theorem mergedItems_eq_map (xs : List Value) : mergedItems xs = xs.map merged := by
  induction xs with
  | nil => rfl
  | cons x xs ih => rw [mergedItems, ih, List.map_cons]

theorem mergedEntries_eq_map (es : List (Value × Value)) :
    mergedEntries es = es.map fun e ↦ (e.1, merged e.2) := by
  induction es with
  | nil => rfl
  | cons e es ih => rw [mergedEntries, ih, List.map_cons]

theorem merged_list (xs : List Value) (k : Nat) : merged (.list xs k) = .list (xs.map merged) := by
  rw [merged, mergedItems_eq_map]

theorem merged_dict (es : List (Value × Value)) (k : Nat) :
    merged (.dict es k) = .dict (es.map fun e ↦ (e.1, merged e.2)) := by
  rw [merged, mergedEntries_eq_map]

theorem merged_numeral (n : Numeral) : merged n.value = n.value := by
  rw [Numeral.value]
  split <;> rfl

variable {stamp : Nat} {cs : List Char}

theorem word?_unifyEnds (cs : List Char) :
    word? 0 (unifyEnds cs) = (word? stamp cs).map fun p ↦ (merged p.1, unifyEnds p.2) := by
  have hall : ∀ ws : List (String × Value), (∀ w ∈ ws, ∀ c ∈ w.1.toList, c ≠ '\r' ∧ c ≠ '\n') →
      ((ws.map fun w ↦ (w.1, merged w.2)).findSome? fun w ↦
        (dropPrefix? w.1.toList (unifyEnds cs)).map fun rest ↦ (w.2, rest)) =
      (ws.findSome? fun w ↦ (dropPrefix? w.1.toList cs).map fun rest ↦ (w.2, rest)).map
        fun p ↦ (merged p.1, unifyEnds p.2) := by
    intro ws hws
    induction ws with
    | nil => rfl
    | cons w ws ih =>
      obtain ⟨hw, hws⟩ := List.forall_mem_cons.1 hws
      simp only [List.map_cons, List.findSome?_cons, dropPrefix?_unifyEnds hw]
      cases dropPrefix? w.1.toList cs with
      | none => exact ih hws
      | some rest => rfl
  exact hall (words stamp) (by simp [words])

theorem word?_suffix {v : Value} {rest : List Char} (h : word? stamp cs = some (v, rest)) :
    rest <:+ cs := by
  obtain ⟨⟨w, x⟩, -, hw⟩ := List.exists_of_findSome?_eq_some h
  obtain ⟨ds, hds, hpair⟩ := Option.map_eq_some_iff.1 hw
  cases hpair
  exact dropPrefix?_suffix hds

end Json

end Fable
