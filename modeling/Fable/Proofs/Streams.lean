import Fable.Tell
import Mathlib.Data.Nat.Digits.Lemmas

namespace Fable

def Fault.behind (n : Nat) : Fault → Fault
  | malformed d p how => malformed d (n + p) how
  | f => f

namespace Tell

/-- What is told as one: a line break, a token that is no directive, or a directive and an operand
that suits it. -/
inductive IsUnit : List Value → Prop
  | newline : IsUnit [.directive .newline]
  | plain {v : Value} (h : ∀ d, v ≠ .directive d) : IsUnit [v]
  | desc (v : Value) : IsUnit [.directive .desc, v]
  | number {v : Value} (h : v.int?.isSome ∨ v.float?.isSome) : IsUnit [.directive .number, v]
  | char {v : Value} (h : ∀ n, v.int? = some n → 0 ≤ n ∧ n ≤ 0x10ffff) :
      IsUnit [.directive .char, v]

/-- Streams that split into units from left to right. -/
inductive WellFormed : List Value → Prop
  | nil : WellFormed []
  | cons {u t : List Value} (hu : IsUnit u) (ht : WellFormed t) : WellFormed (u ++ t)

def Blocked (t : List Value) : Prop := ∀ u r, IsUnit u → t ≠ u ++ r

structure Voice.Says (voice : Voice) (v : Value) : Prop where
  described : ∃ s, voice.describe v = .ok (.text s)
  quoted : ∃ s, v.quoted voice.record [] = .ok s

/-- Wherever these tokens stand, the values are written for them and what follows is told next. -/
def Writes (voice : Voice) (t out : List Value) : Prop :=
  ∀ p r, render voice p (t ++ r) =
    (out ++ (render voice (p + t.length) r).1, (render voice (p + t.length) r).2)

/-- The directive at the front of the stream cannot be told, wherever it stands. -/
def Stuck (voice : Voice) (t : List Value) : Prop :=
  ∃ d how, t.head? = some (.directive d) ∧ ∀ p, render voice p t = ([], some (.malformed d p how))

theorem IsUnit.ne_nil {u : List Value} (h : IsUnit u) : u ≠ [] := by
  cases h <;> exact List.cons_ne_nil _ _

/-- No unit is the beginning of another one. -/
theorem IsUnit.eq_of_append_eq {u v r s : List Value} (hu : IsUnit u)
    (hv : IsUnit v) (h : u ++ r = v ++ s) :
    u = v := by
  cases hu <;> cases hv <;> grind

/-- Every directive but the line break is told together with what follows it. -/
theorem IsUnit.eq_of_directive {u r t : List Value} {d : Directive}
    (hu : IsUnit u) (hd : d ≠ .newline) (h : .directive d :: t = u ++ r) :
    ∃ v, u = [.directive d, v] ∧ t = v :: r := by
  cases hu with
  | newline =>
    obtain ⟨rfl, -⟩ : d = .newline ∧ t = r := by simpa using h
    exact absurd rfl hd
  | plain hv => exact absurd (List.cons.inj h).1.symm (hv d)
  | desc v | number hv | char hv =>
    obtain ⟨rfl, rfl⟩ := by simpa using h
    exact ⟨_, rfl, rfl⟩

theorem blocked_nil : Blocked [] := by
  intro u r hu h
  exact hu.ne_nil (List.append_eq_nil_iff.1 h.symm).1

/-- Whatever well-formed stream stands at the front, it ends before the place where units end. -/
theorem WellFormed.length_le {a w r s : List Value} (ha : WellFormed a)
    (hw : WellFormed w) (hr : Blocked r) (h : a ++ s = w ++ r) : a.length ≤ w.length := by
  induction ha generalizing w with
  | nil => exact Nat.zero_le _
  | @cons u a hu ha ih =>
    rw [List.append_assoc] at h
    cases hw with
    | nil => exact absurd h.symm (hr u (a ++ s) hu)
    | @cons v w hv hw =>
      rw [List.append_assoc] at h
      obtain rfl := hu.eq_of_append_eq hv h
      have := ih hw (List.append_cancel_left h)
      simp only [List.length_append]
      omega

section
variable {voice : Voice} {v : Value} {t : List Value}

theorem Writes.nil : Writes voice [] [] := by
  intro p r
  rfl

theorem Writes.append {s out out' : List Value} (ht : Writes voice t out)
    (hs : Writes voice s out') :
    Writes voice (t ++ s) (out ++ out') := by
  intro p r
  rw [List.append_assoc, ht, hs, List.length_append, Nat.add_assoc, List.append_assoc]

theorem Writes.render_eq {out : List Value} (ht : Writes voice t out) (p : Nat) :
    render voice p t = (out, none) := by
  have h := ht p []
  rwa [List.append_nil, render, List.append_nil] at h

theorem Voice.Says.exists_textBy (hv : voice.Says v) : ∃ s, v.textBy voice.record = .ok s := by
  cases v with
  | text s => exact ⟨s, rfl⟩
  | message m => exact ⟨m.text, rfl⟩
  | directive d => exact ⟨d.text, rfl⟩
  | _ => exact hv.quoted

theorem Voice.Says.exists_plain (hv : voice.Says v) : ∃ w, plain voice v = .ok w := by
  obtain ⟨s, hs⟩ := hv.exists_textBy
  cases v with
  | text s => exact ⟨_, rfl⟩
  | message m => exact ⟨_, rfl⟩
  | _ => exact ⟨.text s, by simp only [plain, hs]; rfl⟩

/-- A number is written, and of any other value the fault says that it is none. -/
theorem Voice.Says.numberText_cases (hv : voice.Says v) (d : Directive) :
    ((v.int?.isSome ∨ v.float?.isSome) ∧ ∃ s, ∀ p, numberText voice d p v = .ok s) ∨
      (¬ (v.int?.isSome ∨ v.float?.isSome) ∧
        ∃ how, ∀ p, numberText voice d p v = .error (.malformed d p how)) := by
  obtain ⟨s, hs⟩ := hv.quoted
  cases v with
  | bool b => exact .inl ⟨.inl rfl, _, fun _ ↦ rfl⟩
  | int n => exact .inl ⟨.inl rfl, s, fun _ ↦ hs⟩
  | float x => exact .inl ⟨.inr rfl, _, fun _ ↦ rfl⟩
  | nan n => exact .inl ⟨.inr rfl, _, fun _ ↦ rfl⟩
  | _ =>
    refine .inr ⟨by simp [Value.int?, Value.float?], .notNumber s, fun p ↦ ?_⟩
    simp only [numberText, hs]
    rfl

theorem ofCode?_eq_none {n : Int} : ofCode? n = none ↔ ¬ (0 ≤ n ∧ n ≤ 0x10ffff) := by
  rw [ofCode?]
  split <;> simp_all

theorem Voice.Says.exists_wholeText (hv : voice.Says v) {n : Int} (hn : v.int? = some n) :
    ∃ s, Value.wholeText n = .ok s := by
  cases v with
  | bool b =>
    cases hn
    cases b <;> exact ⟨_, rfl⟩
  | int m =>
    cases hn
    exact hv.quoted
  | _ => cases hn

/-- A code of a character is written, and so is the first character of a value that is no code. -/
theorem Voice.Says.charText_cases (hv : voice.Says v) (d : Directive) :
    ((∀ n, v.int? = some n → 0 ≤ n ∧ n ≤ 0x10ffff) ∧ ∃ s, ∀ p, charText voice d p v = .ok s) ∨
      (¬ (∀ n, v.int? = some n → 0 ≤ n ∧ n ≤ 0x10ffff) ∧
        ∃ how, ∀ p, charText voice d p v = .error (.malformed d p how)) := by
  cases hn : v.int? with
  | none =>
    obtain ⟨s, hs⟩ := hv.exists_textBy
    refine .inl ⟨by simp, String.ofList (s.toList.take 1), fun p ↦ ?_⟩
    simp only [charText, hn, hs]
    rfl
  | some n =>
    simp only [Option.some.injEq, forall_eq']
    cases hcode : ofCode? n with
    | some s =>
      refine .inl ⟨?_, s, fun p ↦ by simp only [charText, hn, hcode]⟩
      by_contra h
      simp [ofCode?_eq_none.2 h] at hcode
    | none =>
      obtain ⟨s, hs⟩ := hv.exists_wholeText hn
      refine .inr ⟨ofCode?_eq_none.1 hcode, .noCharacter s, fun p ↦ ?_⟩
      simp only [charText, hn, hcode, hs]
      rfl

/-- A directive and its operand are a unit and written, or are none and the fault of the
directive. -/
theorem Voice.Says.operand_cases (hv : voice.Says v) {d : Directive} (hd : d ≠ .newline) :
    (IsUnit [.directive d, v] ∧ ∃ w, ∀ p, operand voice d p v = .ok w) ∨
      (¬ IsUnit [.directive d, v] ∧ ∃ how, ∀ p,
        operand voice d p v = .error (.malformed d p how)) := by
  cases d with
  | newline => exact absurd rfl hd
  | desc =>
    obtain ⟨s, hs⟩ := hv.described
    exact .inl ⟨.desc v, _, fun _ ↦ hs⟩
  | number =>
    rcases hv.numberText_cases .number with ⟨hn, s, hs⟩ | ⟨hn, how, hhow⟩
    · exact .inl ⟨.number hn, .text s, fun p ↦ by rw [operand, hs]; rfl⟩
    · refine .inr ⟨fun h ↦ ?_, how, fun p ↦ by rw [operand, hhow]; rfl⟩
      cases h with
      | number h => exact hn h
  | char =>
    rcases hv.charText_cases .char with ⟨hn, s, hs⟩ | ⟨hn, how, hhow⟩
    · exact .inl ⟨.char hn, .text s, fun p ↦ by simp only [operand, hs]; rfl⟩
    · refine .inr ⟨fun h ↦ ?_, how, fun p ↦ by simp only [operand, hhow]; rfl⟩
      cases h with
      | char h => exact hn h

theorem writes_newline : Writes voice [.directive .newline] [.text "\n"] := by
  intro p r
  rfl

theorem writes_plain (hv : ∀ d, v ≠ .directive d) {w : Value} (hw : plain voice v = .ok w) :
    Writes voice [v] [w] := by
  intro p r
  cases v with
  | directive d => exact absurd rfl (hv d)
  | _ => simp [render, hw]

theorem writes_operand {d : Directive} (hd : d ≠ .newline) {w : Value}
    (hw : ∀ p, operand voice d p v = .ok w) : Writes voice [.directive d, v] [w] := by
  intro p r
  cases d with
  | newline => exact absurd rfl hd
  | _ => simp [render, hw]

theorem render_operand_error {d : Directive} (hd : d ≠ .newline) {p : Nat} {f : Fault}
    (hf : operand voice d p v = .error f) (r : List Value) :
    render voice p (.directive d :: v :: r) = ([], some f) := by
  cases d with
  | newline => exact absurd rfl hd
  | _ => simp [render, hf]

/-- At the front of a stream there is a unit, which is written, or a directive that cannot be
told. -/
theorem unit_or_blocked (ht : ∀ v ∈ t, voice.Says v) :
    (∃ u r out, t = u ++ r ∧ IsUnit u ∧ Writes voice u out) ∨
    (Blocked t ∧ (t = [] ∨ Stuck voice t)) := by
  cases t with
  | nil => exact .inr ⟨blocked_nil, .inl rfl⟩
  | cons v r =>
    by_cases hv : ∃ d, v = .directive d
    · obtain ⟨d, rfl⟩ := hv
      by_cases hd : d = .newline
      · subst hd
        exact .inl ⟨_, r, _, rfl, .newline, writes_newline⟩
      · cases r with
        | nil =>
          refine .inr ⟨?_, .inr ⟨d, .nothingFollows, rfl, fun p ↦ ?_⟩⟩
          · intro u r hu h
            obtain ⟨v, -, hr⟩ := hu.eq_of_directive hd h
            cases hr
          · cases d with
            | newline => exact absurd rfl hd
            | _ => rfl
        | cons v r =>
          have hvoice : voice.Says v := ht v (by simp)
          rcases hvoice.operand_cases hd with ⟨hu, w, hw⟩ | ⟨hu, how, hhow⟩
          · exact .inl ⟨_, r, _, rfl, hu, writes_operand hd hw⟩
          · refine .inr ⟨?_, .inr ⟨d, how, rfl, fun p ↦ render_operand_error hd (hhow p) r⟩⟩
            intro u s hu' h
            obtain ⟨w, rfl, hr⟩ := hu'.eq_of_directive hd h
            cases hr
            exact hu hu'
    · have hplain : ∀ d, v ≠ .directive d := fun d h ↦ hv ⟨d, h⟩
      obtain ⟨w, hw⟩ := (ht v (by simp)).exists_plain
      exact .inl ⟨[v], r, [w], rfl, .plain hplain, writes_plain hplain hw⟩

/-- The longest well-formed part at the front of a stream. -/
theorem exists_longest (ht : ∀ v ∈ t, voice.Says v) :
    ∃ w r out, t = w ++ r ∧ WellFormed w ∧ Writes voice w out ∧ Blocked r ∧
      (r = [] ∨ Stuck voice r) := by
  induction hn : t.length using Nat.strong_induction_on generalizing t with
  | _ n ih =>
    rcases unit_or_blocked ht with ⟨u, s, out, rfl, hu, hout⟩ | ⟨hb, hstuck⟩
    · have hlt : s.length < n := by
        have := List.length_pos_iff.2 hu.ne_nil
        simp only [List.length_append] at hn
        omega
      obtain ⟨w, r, out', rfl, hw, hout', hr⟩ :=
        ih s.length hlt (fun v hv ↦ ht v (by simp [hv])) rfl
      exact ⟨u ++ w, r, out ++ out', (List.append_assoc ..).symm,
        .cons hu hw, hout.append hout', hr⟩
    · exact ⟨[], t, [], rfl, .nil, .nil, hb, hstuck⟩

theorem WellFormed.exists_writes (h : WellFormed t) (ht : ∀ v ∈ t, voice.Says v) :
    ∃ out, Writes voice t out := by
  obtain ⟨w, r, out, rfl, hw, hout, hr, -⟩ := exists_longest ht
  have hle := h.length_le (s := []) hw hr (List.append_nil _)
  obtain rfl : r = [] := by
    rw [List.length_append] at hle
    exact List.length_eq_zero_iff.1 (by omega)
  exact ⟨out, by simpa using hout⟩

/-- What is written does not depend on the position, and the position of a fault is counted from
it. -/
theorem render_behind (ht : ∀ v ∈ t, voice.Says v) (p : Nat) :
    render voice p t = ((render voice 0 t).1, (render voice 0 t).2.map (Fault.behind p)) := by
  obtain ⟨w, r, out, rfl, -, hout, -, rfl | ⟨d, how, -, hhow⟩⟩ := exists_longest ht
  · rw [hout p, hout 0]
    rfl
  · rw [hout p, hout 0, hhow, hhow]
    simp [Fault.behind]

/-- Where the stream is malformed if it is not well-formed. -/
theorem exists_malformed (ht : ∀ v ∈ t, voice.Says v) (h : ¬ WellFormed t) :
    ∃ d p how, (render voice 0 t).2 = some (.malformed d p how) ∧ t[p]? = some (.directive d) ∧
      WellFormed (t.take p) ∧ (∀ q, q <+: t → WellFormed q → q.length ≤ p) ∧
      (render voice 0 t).1 = (render voice 0 (t.take p)).1 := by
  obtain ⟨w, r, out, rfl, hw, hout, hr, rfl | ⟨d, how, hhead, hhow⟩⟩ := exists_longest ht
  · exact absurd (by simpa using hw) h
  have htake : (w ++ r).take w.length = w := List.take_left
  refine ⟨d, w.length, how, ?_, ?_, by rwa [htake], ?_, ?_⟩
  · rw [hout 0 r, hhow, Nat.zero_add]
  · rw [List.getElem?_append_right le_rfl, Nat.sub_self, ← List.head?_eq_getElem?, hhead]
  · rintro q ⟨s, hq⟩ hwf
    exact hwf.length_le hw hr hq
  · rw [htake, hout.render_eq, hout 0 r, hhow, List.append_nil]

theorem WellFormed.render_append {a b : List Value} (ha : WellFormed a)
    (h : ∀ v ∈ a ++ b, voice.Says v) :
    render voice 0 (a ++ b) = ((render voice 0 a).1 ++ (render voice 0 b).1,
      (render voice 0 b).2.map (Fault.behind a.length)) := by
  have hsa : ∀ v ∈ a, voice.Says v := fun v hv ↦ h v (List.mem_append_left b hv)
  have hsb : ∀ v ∈ b, voice.Says v := fun v hv ↦ h v (List.mem_append_right a hv)
  obtain ⟨out, hout⟩ := ha.exists_writes hsa
  rw [hout 0 b, hout.render_eq, Nat.zero_add, render_behind hsb a.length]

end

theorem malformed_behind_longest_wellFormed (voice : Voice) (t : List Value)
    (ht : ∀ v ∈ t, voice.Says v) :
    (WellFormed t → (render voice 0 t).2 = none) ∧
      (¬ WellFormed t → ∃ d p how, (render voice 0 t).2 = some (.malformed d p how) ∧
        t[p]? = some (.directive d) ∧ WellFormed (t.take p) ∧
        (∀ q, q <+: t → WellFormed q → q.length ≤ p) ∧
        (render voice 0 t).1 = (render voice 0 (t.take p)).1) ∧
      ∀ a b, t = a ++ b → WellFormed a →
        (render voice 0 t).1 = (render voice 0 a).1 ++ (render voice 0 b).1 ∧
        (render voice 0 t).2 = (render voice 0 b).2.map (Fault.behind a.length) := by
  refine ⟨?_, exists_malformed ht, ?_⟩
  · intro h
    obtain ⟨out, hout⟩ := h.exists_writes ht
    rw [hout.render_eq]
  · rintro a b rfl ha
    rw [ha.render_append ht]
    exact ⟨rfl, rfl⟩

def aloud : Voice where
  describe v := .ok (.text v.display)
  record := Value.ellipsis

def countedOut : List Value :=
  [.directive .number, .int 3, .directive .newline, .directive .desc, .directive .char,
    .directive .char, .int (-1), .text "never told"]

theorem countedOut_malformed_at_five :
    (∀ v ∈ countedOut, aloud.Says v) ∧ ¬ WellFormed countedOut ∧
      (render aloud 0 countedOut).2 = some (.malformed .char 5 (.noCharacter "-1")) ∧
      WellFormed (countedOut.take 5) ∧ (∀ q, q <+: countedOut → WellFormed q → q.length ≤ 5) := by
  have hvoice : ∀ v ∈ countedOut, aloud.Says v := by
    simp only [countedOut, List.forall_mem_cons]
    refine ⟨⟨⟨_, rfl⟩, ⟨_, rfl⟩⟩, ⟨⟨_, rfl⟩, ⟨_, rfl⟩⟩, ⟨⟨_, rfl⟩, ⟨_, rfl⟩⟩, ⟨⟨_, rfl⟩, ⟨_, rfl⟩⟩,
      ⟨⟨_, rfl⟩, ⟨_, rfl⟩⟩, ⟨⟨_, rfl⟩, ⟨_, rfl⟩⟩, ⟨⟨_, rfl⟩, ⟨_, rfl⟩⟩,
      ⟨⟨_, rfl⟩, ⟨_, rfl⟩⟩, by simp⟩
  obtain ⟨hnone, hsome, -⟩ := malformed_behind_longest_wellFormed aloud countedOut hvoice
  have hfault : (render aloud 0 countedOut).2 = some (.malformed .char 5 (.noCharacter "-1")) := rfl
  have hbad : ¬ WellFormed countedOut := by
    intro h
    rw [hnone h] at hfault
    cases hfault
  obtain ⟨d, p, how, h, -, htake, hmax, -⟩ := hsome hbad
  cases hfault.symm.trans h
  exact ⟨hvoice, hbad, hfault, htake, hmax⟩

theorem wholeText_eq_error {n : Int} (h : 10 ^ Text.mostDigits ≤ n.natAbs) :
    Value.wholeText n = .error .badValue := by
  have hlong : ¬ (toString n.natAbs).length ≤ Text.mostDigits := by
    rw [Nat.toString_eq_repr, ← String.length_toList, Nat.toList_repr,
      Nat.length_toDigits_le_iff (by decide) (by decide)]
    exact not_lt.2 h
  simp only [Value.wholeText, Text.ofInt?, if_neg hlong]

theorem not_wellFormed_char {n : Int} (h : 0x10ffff < n) :
    ¬ WellFormed [.directive .char, .int n] := by
  generalize ht : [Value.directive .char, .int n] = t
  intro hwf
  cases hwf with
  | nil => cases ht
  | cons hu _ =>
    obtain ⟨v, rfl, hv⟩ := hu.eq_of_directive (by decide) ht
    cases hv
    cases hu with
    | char hn => exact absurd (hn n rfl).2 (not_le.2 h)

/-- The first stream is malformed and the second one is not, but with both there is no text for the
number. -/
theorem huge_number_ends_stream :
    (¬ WellFormed [.directive .char, .int (10 ^ 4300)] ∧
        render aloud 0 [.directive .char, .int (10 ^ 4300)] = ([], some .badValue)) ∧
      WellFormed [.directive .number, .int (10 ^ 4300)] ∧
      render aloud 0 [.directive .number, .int (10 ^ 4300)] = ([], some .badValue) := by
  have hpow : ∀ k : Nat, ((10 : Int) ^ k).natAbs = 10 ^ k := fun k ↦ by rw [Int.natAbs_pow]; rfl
  have htext : Value.wholeText (10 ^ 4300) = .error .badValue :=
    wholeText_eq_error (hpow Text.mostDigits).ge
  have hhigh : (0x10ffff : Int) < 10 ^ 4300 :=
    lt_of_lt_of_le (by norm_num) (pow_le_pow_right₀ (by norm_num) (show 7 ≤ 4300 by norm_num))
  have hcode : ofCode? (10 ^ 4300) = none := ofCode?_eq_none.2 fun h ↦ not_le.2 hhigh h.2
  refine ⟨⟨not_wellFormed_char hhigh, ?_⟩, .cons (.number (.inl rfl)) .nil, ?_⟩
  · refine render_operand_error (by decide) ?_ []
    simp only [operand, charText, Value.int?, hcode, htext]
    rfl
  · refine render_operand_error (by decide) ?_ []
    simp only [operand, numberText, htext]
    rfl

end Tell

end Fable
