import Fable.Json.Printer
import Fable.Proofs.Documents

namespace Fable.Json

def codeUnits (c : Char) : List Nat :=
  if c.toNat < 0x10000 then [c.toNat]
  else [0xd800 + (c.toNat - 0x10000) / 0x400, 0xdc00 + (c.toNat - 0x10000) % 0x400]

theorem toNat_valid (c : Char) : c.toNat < 0xd800 ∨ 0xdfff < c.toNat ∧ c.toNat < 0x110000 := c.valid

theorem hexValue?_hexDigit {d : Nat} (h : d < 16) : hexValue? (Text.hexDigit d) = some d := by
  have hall : ∀ d < 16, hexValue? (Text.hexDigit d) = some d := by decide
  exact hall d h

theorem units_escapedUnit {u : Nat} (hu : u < 0x10000) (opened : List Char)
    (done : List Nat) {rest : List Char} (hrest : rest ≠ []) :
    units opened done (escapedUnit u ++ rest) = units opened (u :: done) rest := by
  have hhex : Text.hex 4 u =
      [Text.hexDigit (u / 16 / 16 / 16 % 16), Text.hexDigit (u / 16 / 16 % 16),
        Text.hexDigit (u / 16 % 16), Text.hexDigit (u % 16)] := rfl
  have hunit : unit? (Text.hexDigit (u / 16 / 16 / 16 % 16)) (Text.hexDigit (u / 16 / 16 % 16))
      (Text.hexDigit (u / 16 % 16)) (Text.hexDigit (u % 16)) = some u := by
    simp only [unit?, hexValue?_hexDigit (Nat.mod_lt _ (by decide : 0 < 16)),
      Option.bind_eq_bind, Option.bind_some, Option.pure_def, Option.some.injEq]
    omega
  have hempty : rest.isEmpty = false := List.isEmpty_eq_false_iff.2 hrest
  simp only [escapedUnit, hhex, List.cons_append, List.nil_append, units, hempty, hunit]

theorem units_cons {c : Char} (hquote : c ≠ '"') (hslash : c ≠ '\\')
    (opened : List Char) (done : List Nat) (cs : List Char) :
    units opened done (c :: cs) =
      if c.toNat < 0x20 then trouble .controlCharacter (c :: cs)
      else units opened (c.toNat :: done) cs := by
  rw [units]
  all_goals simp_all

theorem units_escapedChar (c : Char) (opened : List Char) (done : List Nat)
    {rest : List Char} (hrest : rest ≠ []) :
    units opened done (escapedChar c ++ rest) =
      units opened ((codeUnits c).reverse ++ done) rest := by
  have hsimple (e : Char) (he : e.toNat < 0x10000) :
      (codeUnits e).reverse ++ done = e.toNat :: done := by
    rw [codeUnits, if_pos he]
    rfl
  unfold escapedChar
  split
  · next h =>
    rcases h with rfl | rfl
    · rfl
    · rfl
  split
  · next h => subst h; rfl
  split
  · next h => subst h; rfl
  split
  · next h => subst h; rfl
  split
  · next h => subst h; rfl
  split
  · next h => subst h; rfl
  split
  · next hq _ _ _ _ _ hc =>
    rw [not_or] at hq
    rw [hsimple c (by omega), List.singleton_append, units_cons hq.1 hq.2,
      if_neg (Nat.not_lt.2 hc.1)]
  split
  · next hc => rw [hsimple c hc, units_escapedUnit hc opened done hrest]
  · next hc =>
    have hvalid := toNat_valid c
    rw [List.append_assoc, units_escapedUnit (by omega) opened done (by simp [escapedUnit]),
      units_escapedUnit (by omega) opened _ hrest, codeUnits, if_neg hc]
    rfl

theorem units_escaped (cs opened : List Char) (done : List Nat) (rest : List Char) :
    units opened done (cs.flatMap escapedChar ++ '"' :: rest) =
      .ok ((cs.flatMap codeUnits).reverse ++ done, rest) := by
  induction cs generalizing done with
  | nil => rfl
  | cons c cs ih =>
    rw [List.flatMap_cons, List.append_assoc, units_escapedChar c opened done (by simp), ih,
      List.flatMap_cons, List.reverse_append, List.append_assoc]

theorem joined_cons_of_not_low {u : Nat} (hu : isLow u = false) (done : List Char) (us : List Nat) :
    joined done (u :: us) = joined (ofUnit u :: done) us := by
  cases us with
  | nil => rfl
  | cons v us => simp [joined, hu]

theorem joined_codeUnits (c : Char) (done : List Char) (us : List Nat) :
    joined done ((codeUnits c).reverse ++ us) = joined (c :: done) us := by
  have hvalid := toNat_valid c
  rw [codeUnits]
  split
  · next hc =>
    have hlow : isLow c.toNat = false := by
      simp only [isLow, Bool.and_eq_false_iff, decide_eq_false_iff_not]
      omega
    have hunit : ofUnit c.toNat = c := by
      rw [ofUnit, if_pos (show c.toNat.isValidChar from c.valid), Char.ofNat_toNat]
    rw [List.reverse_singleton, List.singleton_append, joined_cons_of_not_low hlow, hunit]
  · next hc =>
    have hhigh : isHigh (0xd800 + (c.toNat - 0x10000) / 0x400) = true := by
      simp only [isHigh, Bool.and_eq_true, decide_eq_true_eq]
      omega
    have hlow : isLow (0xdc00 + (c.toNat - 0x10000) % 0x400) = true := by
      simp only [isLow, Bool.and_eq_true, decide_eq_true_eq]
      omega
    have hpair : ofPair (0xd800 + (c.toNat - 0x10000) / 0x400)
        (0xdc00 + (c.toNat - 0x10000) % 0x400) = c := by
      have hsum : 0x10000 + (0xd800 + (c.toNat - 0x10000) / 0x400 - 0xd800) * 0x400 +
          (0xdc00 + (c.toNat - 0x10000) % 0x400 - 0xdc00) = c.toNat := by omega
      rw [ofPair, hsum, Char.ofNat_toNat]
    simp only [List.reverse_cons, List.reverse_nil, List.nil_append,
      List.cons_append, joined, hhigh, hlow, Bool.and_self, if_true, hpair]

theorem joined_escaped (cs done : List Char) :
    joined done (cs.flatMap codeUnits).reverse = cs ++ done := by
  induction cs using List.reverseRecOn generalizing done with
  | nil => rfl
  | append_singleton cs c ih =>
    rw [List.flatMap_append, List.reverse_append, List.flatMap_singleton,
      joined_codeUnits, ih, List.append_assoc, List.singleton_append]

theorem string_stringText (s : String) (opened rest : List Char) :
    string .file opened (s.toList.flatMap escapedChar ++ '"' :: rest) = .ok (s, rest) := by
  rw [string, units_escaped]
  simp only [bind, Except.bind, reduceCtorEq, false_and, if_false, List.append_nil, joined_escaped,
    String.ofList_toList]
  rfl

/-- Nothing that follows belongs to the value before. -/
def Stops (rest : List Char) : Prop := ∀ c ∈ rest.head?, c = ',' ∨ c = '\n'

theorem digitsValue_toDigits (k : Nat) : Number.digitsValue (Nat.toDigits 10 k) = k := by
  have hfold : Number.digitsValue (Nat.toDigits 10 k) =
      Nat.ofDigitChars 10 (Nat.toDigits 10 k) 0 := by
    rw [Number.digitsValue, Nat.ofDigitChars]
    simp only [Nat.mul_comm 10]
    rfl
  rw [hfold, Nat.ofDigitChars_toDigits (by decide) (by decide)]

/-- A zero in front is the only digit. -/
theorem eq_nil_of_toDigits {k : Nat} {ds : List Char} (h : Nat.toDigits 10 k = '0' :: ds) :
    ds = [] := by
  induction k using Nat.strong_induction_on generalizing ds with
  | _ k ih =>
    by_cases hk : k < 10
    · rw [Nat.toDigits_of_lt_base hk] at h
      exact (List.cons.inj h).2.symm
    · rw [Nat.toDigits_of_base_le (by decide) (Nat.not_lt.1 hk)] at h
      cases hrest : Nat.toDigits 10 (k / 10) with
      | nil => exact absurd hrest Nat.toDigits_ne_nil
      | cons c cs =>
        rw [hrest, List.cons_append] at h
        obtain ⟨rfl, -⟩ := List.cons.inj h
        have hvalue := digitsValue_toDigits (k / 10)
        rw [hrest, ih (k / 10) (by omega) hrest] at hvalue
        have hzero : Number.digitsValue ['0'] = 0 := rfl
        omega

theorem integer?_toDigits (k : Nat) {rest : List Char} (hrest : Stops rest) :
    integer? (Nat.toDigits 10 k ++ rest) = some (Nat.toDigits 10 k, rest) := by
  have hdigits : ∀ c ∈ Nat.toDigits 10 k, c.isDigit = true :=
    fun c ↦ Nat.isDigit_of_mem_toDigits (by decide) (by decide)
  have hstop : rest.takeWhile Char.isDigit = [] ∧ rest.dropWhile Char.isDigit = rest := by
    cases rest with
    | nil => exact ⟨rfl, rfl⟩
    | cons c cs => rcases hrest c rfl with rfl | rfl <;> exact ⟨rfl, rfl⟩
  cases hk : Nat.toDigits 10 k with
  | nil => exact absurd hk Nat.toDigits_ne_nil
  | cons c cs =>
    rw [hk] at hdigits
    rw [List.cons_append, integer?]
    split
    · next hc =>
      subst hc
      rw [eq_nil_of_toDigits hk, List.nil_append]
    · have hcs : ∀ d ∈ cs, d.isDigit = true := fun d hd ↦ hdigits d (List.mem_cons_of_mem _ hd)
      rw [if_pos (hdigits c List.mem_cons_self), List.takeWhile_append_of_pos hcs,
        List.dropWhile_append_of_pos hcs, hstop.1, hstop.2, List.append_nil]

theorem numeral?_toDigits (negative : Bool) (k : Nat) {rest : List Char} (hrest : Stops rest) :
    numeral? ((if negative then ['-'] else []) ++ Nat.toDigits 10 k ++ rest) =
      some ({ negative, integer := Nat.toDigits 10 k, fraction := none, exponent := none },
        rest) := by
  have hfraction : fraction? rest = none := by
    cases rest with
    | nil => rfl
    | cons c cs => rcases hrest c rfl with rfl | rfl <;> rfl
  have hexponent : exponent? rest = none := by
    cases rest with
    | nil => rfl
    | cons c cs => rcases hrest c rfl with rfl | rfl <;> rfl
  have hinteger := integer?_toDigits k hrest
  cases negative with
  | true => simp [numeral?, hinteger, hfraction, hexponent]
  | false =>
    have hsign : ∀ ds, Nat.toDigits 10 k ++ rest ≠ '-' :: ds := by
      intro ds hds
      cases hk : Nat.toDigits 10 k with
      | nil => exact Nat.toDigits_ne_nil hk
      | cons c cs =>
        rw [hk] at hds
        obtain ⟨rfl, -⟩ := List.cons.inj hds
        have hdigit : '-'.isDigit = true :=
          Nat.isDigit_of_mem_toDigits (b := 10) (n := k) (by decide) (by decide)
            (hk ▸ List.mem_cons_self)
        exact absurd hdigit (by decide)
    simp only [Bool.false_eq_true, if_false, List.nil_append]
    unfold numeral?
    split
    next negative ds heq =>
    split at heq
    · next ds' h => exact absurd h (hsign ds')
    · cases heq
      simp [hinteger, hfraction, hexponent]

theorem toList_wholeText {n : Int} {t : String} (h : Value.wholeText n = .ok t) :
    t.toList = (if decide (n < 0) then ['-'] else []) ++ Nat.toDigits 10 n.natAbs ∧
      (Nat.toDigits 10 n.natAbs).length ≤ Text.mostDigits := by
  rw [Value.wholeText, Text.ofInt?, Nat.toString_eq_repr] at h
  split at h
  · next s hs =>
    split at hs
    · next hlength =>
      cases h
      cases hs
      refine ⟨?_, by rwa [← Nat.toList_repr, String.length_toList]⟩
      by_cases hn : n < 0 <;> simp [hn, Nat.toList_repr]
    · cases hs
  · cases h

theorem scalar_wholeText {n : Int} {t : String} (h : Value.wholeText n = .ok t) {rest : List Char}
    (hrest : Stops rest) : scalar .file 0 (t.toList ++ rest) = .ok (.int n, rest) := by
  obtain ⟨ht, hlength⟩ := toList_wholeText h
  have hvalue : Number.signed (decide (n < 0)) n.natAbs = n := by
    rw [Number.signed]
    by_cases hn : n < 0
    · rw [if_pos (decide_eq_true hn)]
      omega
    · rw [if_neg (by simpa using hn)]
      omega
  rw [scalar, ht, numeral?_toDigits _ _ hrest]
  simp [Numeral.tooLong, Numeral.isWhole, Numeral.value, Nat.not_lt.2 hlength,
    digitsValue_toDigits, hvalue]

end Fable.Json
