import Fable.Proofs.Numerals

namespace Fable

namespace Json

open Text

variable {α β : Type} {cs : List Char}

/-- What comes of reading some characters, and of reading them with line ends made alike: what is
read is changed by `f` and the same is left, or something is complained about. A given text may be
refused where a file is not. -/
inductive Follows (o o' : Origin) (f : α → α) (cs : List Char) : Read α → Read α → Prop
  | read {a : α} {rest : List Char} (h : rest <:+ cs) :
    Follows o o' f cs (.ok (a, rest)) (.ok (f a, unifyEnds rest))
  | failed (c : Complaint) (m n : Nat) : Follows o o' f cs (.error ⟨c, m⟩) (.error ⟨c, n⟩)
  | refused {c : Complaint} (m : Nat) (x : Read α) (ho : o ≠ o')
      (hc : c = .unicodeEscape ∨ c = .digits) :
    Follows o o' f cs (.error ⟨c, m⟩) x

variable {o o' : Origin} {f : α → α} {g : β → β} {ds : List Char}

theorem follows_trouble (c : Complaint) (ps qs : List Char) :
    Follows o o' f cs (trouble c ps) (trouble c qs) :=
  .failed c _ _

theorem Follows.mono {x y : Read α} (h : Follows o o' f ds x y) (hds : ds <:+ cs) :
    Follows o o' f cs x y := by
  cases h with
  | read h => exact .read (h.trans hds)
  | failed c m n => exact .failed c m n
  | refused m _ ho hc => exact .refused m _ ho hc

theorem Follows.bind {x y : Read α} (h : Follows o o' f cs x y) {k l : α × List Char → Read β}
    (hkl : ∀ a rest, rest <:+ cs → Follows o o' g cs (k (a, rest)) (l (f a, unifyEnds rest))) :
    Follows o o' g cs (x.bind k) (y.bind l) := by
  cases h with
  | read h => exact hkl _ _ h
  | failed c m n => exact .failed c m n
  | refused m _ ho hc => exact .refused m _ ho hc

theorem Follows.map {x y : Read α} (h : Follows o o' f cs x y) {k : α → β}
    (hk : ∀ a, g (k a) = k (f a)) :
    Follows o o' g cs (x.map fun p ↦ (k p.1, p.2)) (y.map fun p ↦ (k p.1, p.2)) := by
  cases h with
  | @read a rest h =>
    have h' : Follows o o' g cs (.ok (k a, rest)) (.ok (g (k a), unifyEnds rest)) := .read h
    rwa [hk] at h'
  | failed c m n => exact .failed c m n
  | refused m _ ho hc => exact .refused m _ ho hc

def IsEscape (cs : List Char) (u : Nat) (rest : List Char) : Prop :=
  ∃ a b c d, cs = a :: b :: c :: d :: rest ∧ unit? a b c d = some u ∧ rest ≠ []

theorem ne_lineFeed_of_unit? {a b c d : Char} {u : Nat} (h : unit? a b c d = some u) :
    (a ≠ '\n' ∧ b ≠ '\n' ∧ c ≠ '\n' ∧ d ≠ '\n') ∧ a ≠ '\r' ∧ b ≠ '\r' ∧ c ≠ '\r' ∧ d ≠ '\r' := by
  have hhex {e : Char} {n : Nat} (he : hexValue? e = some n) : e ≠ '\n' ∧ e ≠ '\r' := by
    constructor <;> rintro rfl <;> cases he
  simp only [unit?, Option.bind_eq_bind, Option.bind_eq_some_iff] at h
  obtain ⟨_, ha, _, hb, _, hc, _, hd, -⟩ := h
  exact ⟨⟨(hhex ha).1, (hhex hb).1, (hhex hc).1, (hhex hd).1⟩, (hhex ha).2, (hhex hb).2,
    (hhex hc).2, (hhex hd).2⟩

theorem isEscape_unifyEnds {cs rest : List Char} {u : Nat} :
    IsEscape (unifyEnds cs) u rest ↔ ∃ ds, IsEscape cs u ds ∧ unifyEnds ds = rest := by
  constructor
  · rintro ⟨a, b, c, d, hcs, hu, hrest⟩
    obtain ⟨⟨ha, hb, hc, hd⟩, -⟩ := ne_lineFeed_of_unit? hu
    obtain ⟨cs₁, rfl, h₁⟩ := eq_cons_of_unifyEnds hcs ha
    obtain ⟨cs₂, rfl, h₂⟩ := eq_cons_of_unifyEnds h₁ hb
    obtain ⟨cs₃, rfl, h₃⟩ := eq_cons_of_unifyEnds h₂ hc
    obtain ⟨cs₄, rfl, rfl⟩ := eq_cons_of_unifyEnds h₃ hd
    exact ⟨cs₄, ⟨a, b, c, d, rfl, hu, fun h ↦ hrest (unifyEnds_eq_nil.2 h)⟩, rfl⟩
  · rintro ⟨ds, ⟨a, b, c, d, rfl, hu, hds⟩, rfl⟩
    obtain ⟨-, ha, hb, hc, hd⟩ := ne_lineFeed_of_unit? hu
    refine ⟨a, b, c, d, ?_, hu, fun h ↦ hds (unifyEnds_eq_nil.1 h)⟩
    rw [unifyEnds_cons ha, unifyEnds_cons hb, unifyEnds_cons hc, unifyEnds_cons hd]

theorem units_escape {u : Nat} {rest : List Char} (h : IsEscape cs u rest)
    (opened : List Char) (done : List Nat) :
    units opened done ('\\' :: 'u' :: cs) = units opened (u :: done) rest := by
  obtain ⟨a, b, c, d, rfl, hu, hrest⟩ := h
  have hempty : rest.isEmpty = false := List.isEmpty_eq_false_iff.2 hrest
  simp only [units, hempty, hu]

theorem units_not_escape (h : ∀ u rest, ¬ IsEscape cs u rest)
    (opened : List Char) (done : List Nat) :
    units opened done ('\\' :: 'u' :: cs) = trouble .unicodeEscape ('u' :: cs) := by
  match cs with
  | a :: b :: c :: d :: rest =>
    rw [units]
    split
    · next u hempty hu =>
      exact absurd ⟨a, b, c, d, rfl, hu, List.isEmpty_eq_false_iff.1 hempty⟩ (h u rest)
    · rfl
  | [] => rfl
  | [_] => rfl
  | [_, _] => rfl
  | [_, _, _] => rfl

theorem units_backslash {c : Char} (hc : c ≠ 'u') (opened : List Char)
    (done : List Nat) (cs : List Char) :
    units opened done ('\\' :: c :: cs) = match simpleEscape? c with
      | some e => units opened (e.toNat :: done) cs
      | none => trouble .escape ('\\' :: c :: cs) := by
  cases h : simpleEscape? c <;> simp [units, hc, h]

theorem simpleEscape?_of_lineEnd {c : Char} (hc : c = '\r' ∨ c = '\n') :
    simpleEscape? c = none := by
  rcases hc with rfl | rfl <;> decide

theorem units_follows_backslash {opened opened' cs : List Char}
    (hrest : ∀ {rest}, rest <:+ cs → ∀ done,
      Follows o o' id rest (units opened done rest)
        (units opened' done (unifyEnds rest))) (done : List Nat) :
    Follows o o' id ('\\' :: cs) (units opened done ('\\' :: cs))
      (units opened' done ('\\' :: unifyEnds cs)) := by
  have hbehind {rest : List Char} (h : rest <:+ cs) (done : List Nat) :
      Follows o o' id ('\\' :: cs) (units opened done rest) (units opened' done (unifyEnds rest)) :=
    (hrest h done).mono (h.trans (List.suffix_cons _ cs))
  cases cs using lineEnd_cases with
  | nil => exact follows_trouble ..
  | lineEnd cs ds hds =>
    rw [hds, units_backslash (by decide), units_backslash (by decide),
      simpleEscape?_of_lineEnd (.inl rfl), simpleEscape?_of_lineEnd (.inr rfl)]
    exact follows_trouble ..
  | char d cs _ hds =>
    rw [hds]
    by_cases hd : d = 'u'
    · subst hd
      by_cases hescape : ∃ u rest, IsEscape cs u rest
      · obtain ⟨u, rest, hu⟩ := hescape
        rw [units_escape hu, units_escape (isEscape_unifyEnds.2 ⟨rest, hu, rfl⟩)]
        obtain ⟨a, b, c, d, rfl, -, -⟩ := hu
        exact hbehind (List.suffix_append [_, _, _, _, _] rest) _
      · have hnone : ∀ u rest, ¬ IsEscape cs u rest := fun u rest h ↦ hescape ⟨u, rest, h⟩
        rw [units_not_escape hnone, units_not_escape]
        · exact follows_trouble ..
        · intro u rest h
          obtain ⟨ds, hds, -⟩ := isEscape_unifyEnds.1 h
          exact hnone u ds hds
    · rw [units_backslash hd, units_backslash hd]
      cases simpleEscape? d with
      | none => exact follows_trouble ..
      | some e => exact hbehind (List.suffix_cons d cs) _

/-- The units of a string do not hold an end of a line, which ends the string with a complaint. -/
theorem units_follows (opened opened' : List Char) (done : List Nat) (cs : List Char) :
    Follows o o' id cs (units opened done cs) (units opened' done (unifyEnds cs)) := by
  induction hn : cs.length using Nat.strong_induction_on generalizing cs done with
  | _ n ih =>
    cases cs using lineEnd_cases with
    | nil => exact follows_trouble ..
    | lineEnd cs ds hds =>
      rw [hds, units_cons (by decide) (by decide), units_cons (by decide) (by decide)]
      exact follows_trouble ..
    | char c cs _ hcs =>
      subst hn
      have hrest {rest : List Char} (h : rest <:+ cs) (done : List Nat) :
          Follows o o' id rest (units opened done rest) (units opened' done (unifyEnds rest)) :=
        ih rest.length (Nat.lt_succ_of_le h.length_le) done rest rfl
      rw [hcs]
      by_cases hquote : c = '"'
      · subst hquote
        exact .read (List.suffix_cons _ _)
      by_cases hslash : c = '\\'
      · subst hslash
        exact units_follows_backslash hrest done
      · rw [units_cons hquote hslash, units_cons hquote hslash]
        split
        · exact follows_trouble ..
        · exact (hrest List.suffix_rfl _).mono (List.suffix_cons c cs)

theorem string_follows (ho : o' = .given → o = .given)
    (opened opened' : List Char) (cs : List Char) :
    Follows o o' id cs (string o opened cs) (string o' opened' (unifyEnds cs)) := by
  refine (units_follows opened opened' [] cs).bind fun us rest hrest ↦ ?_
  dsimp only [id]
  by_cases htorn : isTorn us = true
  · by_cases hgiven : o = .given
    · rw [if_pos ⟨hgiven, htorn⟩]
      by_cases hgiven' : o' = .given
      · rw [if_pos ⟨hgiven', htorn⟩]
        exact follows_trouble ..
      · exact .refused _ _ (fun h ↦ hgiven' (h ▸ hgiven)) (.inl rfl)
    · rw [if_neg fun h ↦ hgiven h.1, if_neg fun h ↦ hgiven (ho h.1)]
      exact .read hrest
  · rw [if_neg fun h ↦ htorn h.2, if_neg fun h ↦ htorn h.2]
    exact .read hrest

theorem tooLong_of_origin (ho : o' = .given → o = .given) {n : Numeral} (h : n.tooLong o' = true) :
    n.tooLong o = true := by
  cases o <;> cases o' <;> simp_all [Numeral.tooLong]

theorem scalar_follows (ho : o' = .given → o = .given) (stamp : Nat) (cs : List Char) :
    Follows o o' merged cs (scalar o stamp cs) (scalar o' 0 (unifyEnds cs)) := by
  rw [scalar, scalar, scans_numeral.unify, word?_unifyEnds]
  cases hn : numeral? cs with
  | some p =>
    dsimp only [Option.map_some]
    by_cases hlong : p.1.tooLong o = true
    · rw [if_pos hlong]
      by_cases hsame : o = o'
      · rw [if_pos (hsame ▸ hlong)]
        exact follows_trouble ..
      · exact .refused _ _ hsame (.inr rfl)
    · rw [if_neg hlong, if_neg (mt (tooLong_of_origin ho) hlong)]
      have h :
          Follows o o' merged cs (.ok (p.1.value, p.2)) (.ok (merged p.1.value, unifyEnds p.2)) :=
        .read (scans_numeral.suffix hn)
      rwa [merged_numeral] at h
  | none =>
    cases hw : word? stamp cs with
    | some p => exact .read (word?_suffix hw)
    | none => exact follows_trouble ..

end Json

end Fable
