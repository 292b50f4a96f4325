import Fable.Proofs.Calls

namespace Fable.Store

variable {s t : Store}

/-- The arrivals and the records say the same: each object has arrived once, where its record
says. -/
structure Tidy (s : Store) : Prop where
  isDefined : ∀ a ∈ s.arrivals, a.object.isText ∧ s.isDefined a.object
  container : ∀ a ∈ s.arrivals, a.container.IsPlace ∧
    a.container.string? = (s.parent a.object).string?
  listed : ∀ x, x.isText → s.isDefined x → ∃ a ∈ s.arrivals, a.object.string? = x.string?
  once : s.arrivals.Pairwise fun a b ↦ a.object.string? ≠ b.object.string?

theorem isDefined_congr {x y : Value} (hx : x.isText) (h : x.string? = y.string?) :
    s.isDefined x = s.isDefined y := by
  rw [isDefined, isDefined, find?_congr s hx h]

theorem eraseP_eq_filter {as : List Arrival} {p : Arrival → Bool} {k : Option String}
    (hp : ∀ a ∈ as, p a = (a.object.string? == k))
    (h : as.Pairwise fun a b ↦ a.object.string? ≠ b.object.string?) :
    as.eraseP p = as.filter fun a ↦ a.object.string? != k := by
  induction as with
  | nil => rfl
  | cons a as ih =>
    obtain ⟨ha, has⟩ := List.pairwise_cons.1 h
    have hpa := hp a (by simp)
    by_cases hk : a.object.string? = k
    · have hrest : as.filter (fun b ↦ b.object.string? != k) = as := by
        refine List.filter_eq_self.2 fun b hb ↦ bne_iff_ne.2 ?_
        rw [← hk]
        exact (ha b hb).symm
      simp [hpa, hk, hrest]
    · simp [hpa, hk, ih (fun b hb ↦ hp b (by simp [hb])) has]

theorem Tidy.arrivals_leave (ht : s.Tidy) (hp : s.Placed) {x : Value} (hx : x.isText) :
    (s.leave x).arrivals = s.arrivals.filter fun a ↦ a.object.string? != x.string? := by
  cases hr : s.lookup? x with
  | none =>
    rw [leave, hr]
    refine (List.filter_eq_self.2 fun a ha ↦ ?_).symm
    obtain ⟨hat, had⟩ := ht.isDefined a ha
    refine bne_iff_ne.2 fun he ↦ ?_
    rw [isDefined_congr hat he, Store.isDefined, find?_eq_lookup? s hx, hr] at had
    simp at had
  | some r =>
    have hpar : s.parent x = r.parent := by simp only [parent, find?_eq_lookup? s hx, hr]
    have hplace : r.parent.IsPlace := hpar ▸ hp.parent (.of_isText hx)
    simp only [leave, hr, detach]
    refine eraseP_eq_filter (fun a ha ↦ ?_) ht.once
    obtain ⟨hat, -⟩ := ht.isDefined a ha
    obtain ⟨hcp, hc⟩ := ht.container a ha
    rw [Value.alike_eq_of_isText _ hx, Value.alike_eq_of_isPlace hcp hplace, hc]
    by_cases he : a.object.string? = x.string?
    · rw [parent_congr s (find?_congr s hat he), hpar]
      simp [he]
    · simp [he]

theorem tidy_empty : Tidy {} := by
  refine ⟨by simp, by simp, fun x hx hd ↦ ?_, by simp⟩
  simp [isDefined, find?, lookup?, Table.find?] at hd

theorem Keeps.tidy (h : Keeps s t) (ht : s.Tidy) : t.Tidy := by
  refine ⟨fun a ha ↦ ?_, fun a ha ↦ ?_, fun x hx hd ↦ ?_, h.arrivals ▸ ht.once⟩
  · obtain ⟨hat, had⟩ := ht.isDefined a (h.arrivals ▸ ha)
    exact ⟨hat, by rwa [h.isDefined _ hat]⟩
  · have ha' := h.arrivals ▸ ha
    rw [h.parent _ (ht.isDefined a ha').1]
    exact ht.container a ha'
  · rw [h.isDefined x hx] at hd
    exact h.arrivals ▸ ht.listed x hx hd

theorem Places.tidy {x into : Value} (h : Places s x into t) (hp : s.Placed) (ht : s.Tidy) :
    t.Tidy := by
  have harr :
      t.arrivals = (s.arrivals.filter fun a ↦ a.object.string? != x.string?) ++ [⟨x, into⟩] := by
    rw [h.arrivals, ht.arrivals_leave hp h.isText]
  have hmem {a : Arrival} (ha : a ∈ t.arrivals) :
      (a ∈ s.arrivals ∧ x.string? ≠ a.object.string?) ∨ a = ⟨x, into⟩ := by
    rw [harr, List.mem_append, List.mem_filter, List.mem_singleton, bne_iff_ne, ne_comm] at ha
    exact ha
  refine ⟨fun a ha ↦ ?_, fun a ha ↦ ?_, fun y hy hd ↦ ?_, ?_⟩
  · rcases hmem ha with ⟨ha, hne⟩ | rfl
    · obtain ⟨hat, had⟩ := ht.isDefined a ha
      exact ⟨hat, by simp [h.isDefined _ hat, had]⟩
    · exact ⟨h.isText, by simp [h.isDefined x h.isText]⟩
  · rcases hmem ha with ⟨ha, hne⟩ | rfl
    · rw [h.parent _ (ht.isDefined a ha).1, if_neg hne]
      exact ht.container a ha
    · rw [h.parent x h.isText, if_pos rfl]
      exact ⟨h.isPlace, rfl⟩
  · rw [harr]
    by_cases he : x.string? = y.string?
    · exact ⟨⟨x, into⟩, by simp, he⟩
    · rw [h.isDefined y hy, beq_eq_false_iff_ne.2 he, Bool.false_or] at hd
      obtain ⟨a, ha, hay⟩ := ht.listed y hy hd
      refine ⟨a, List.mem_append_left _ (List.mem_filter.2 ⟨ha, ?_⟩), hay⟩
      rw [hay]
      exact bne_iff_ne.2 (Ne.symm he)
  · rw [harr]
    refine List.pairwise_append.2 ⟨ht.once.filter _, List.pairwise_singleton _ _,
      fun a ha b hb ↦ ?_⟩
    rw [List.mem_singleton.1 hb]
    exact bne_iff_ne.1 (List.mem_filter.1 ha).2

theorem Call.tidy_after {c : Call} (hc : c.WellTyped) (hp : s.Placed) (ht : s.Tidy) :
    (c.after s).Tidy := by
  cases h : c.placement? with
  | none => exact (c.keeps_after hc h s).tidy ht
  | some p =>
    rcases c.after_of_placement hc h s with ⟨-, hpl⟩ | ⟨he, -⟩
    · exact hpl.tidy hp ht
    · rwa [he]

theorem Reachable.tidy (h : Reachable s) : s.Tidy := by
  induction h with
  | empty => exact tidy_empty
  | call hr hc ih => exact Call.tidy_after hc hr.nested.placed ih

/-- Where accepted calls from a store on put objects, in order of time. -/
def placements (s : Store) : List Call → List Arrival
  | [] => []
  | c :: calls => (if c.accepted s then c.placement?.toList else []) ++ placements (c.after s) calls

/-- The arrivals of objects that do not arrive again. -/
def latest : List Arrival → List Arrival
  | [] => []
  | a :: as => if as.any fun b ↦ Value.same b.object a.object then latest as else a :: latest as

theorem placements_append (s : Store) (calls : List Call) (c : Call) :
    placements s (calls ++ [c]) = placements s calls ++
      if c.accepted (calls.foldl (fun s c ↦ c.after s) s) then c.placement?.toList else [] := by
  induction calls generalizing s with
  | nil => exact List.append_nil _
  | cons d calls ih =>
    rw [List.cons_append, placements, ih, placements, List.append_assoc]
    rfl

theorem isText_of_mem_placements {calls : List Call} (h : ∀ c ∈ calls, c.WellTyped) {a : Arrival}
    (ha : a ∈ placements s calls) : a.object.isText := by
  induction calls generalizing s with
  | nil => simp [placements] at ha
  | cons c calls ih =>
    rcases List.mem_append.1 ha with ha | ha
    · have hc := h c (by simp)
      have hpl : c.placement? = some a := by
        split at ha
        · exact Option.mem_toList.1 ha
        · simp at ha
      cases c with
      | define id at' => obtain rfl := Option.some.inj hpl; exact hc.1
      | move id into => obtain rfl := Option.some.inj hpl; exact hc.1
      | remove id => obtain rfl := Option.some.inj hpl; exact hc
      | setFlag | clearFlag | setProperty => simp [Call.placement?] at hpl
    · exact ih (fun d hd ↦ h d (by simp [hd])) ha

theorem latest_sublist (as : List Arrival) : (latest as).Sublist as := by
  induction as with
  | nil => exact .slnil
  | cons a as ih =>
    rw [latest]
    split
    · exact ih.cons a
    · exact ih.cons_cons a

theorem latest_append (as : List Arrival) (b : Arrival) :
    latest (as ++ [b]) = (latest as).filter (fun a ↦ !Value.same b.object a.object) ++ [b] := by
  induction as with
  | nil => simp [latest]
  | cons a as ih =>
    rw [List.cons_append, latest, latest, List.any_append, ih]
    by_cases hb : Value.same b.object a.object <;>
      by_cases hany : as.any fun c ↦ Value.same c.object a.object <;> simp [hb, hany]

theorem Places.arrivals_latest {p : Arrival} {ps : List Arrival}
    (h : Places s p.object p.container t) (hp : s.Placed) (ht : s.Tidy)
    (htext : ∀ a ∈ latest ps, a.object.isText)
    (hs : s.arrivals = (latest ps).filter fun a ↦ s.isDefined a.object) :
    t.arrivals = (latest (ps ++ [p])).filter fun a ↦ t.isDefined a.object := by
  rw [latest_append, h.arrivals, ht.arrivals_leave hp h.isText, hs,
    List.filter_append, List.filter_filter, List.filter_filter]
  congr 1
  · refine List.filter_congr fun a ha ↦ ?_
    rw [h.isDefined _ (htext a ha), Value.same_eq_of_isText _ (htext a ha)]
    by_cases he : p.object.string? = a.object.string?
    · simp [he]
    · have hne : (a.object.string? != p.object.string?) = true := bne_iff_ne.2 (Ne.symm he)
      rw [hne, beq_eq_false_iff_ne.2 he]
      simp
  · simp [h.isDefined _ h.isText]

/-- A move of an object that is not defined is accepted, but does not count. -/
theorem filter_latest_of_undefined {p : Arrival} {ps : List Arrival}
    (hd : s.isDefined p.object = false) (htext : ∀ a ∈ latest ps, a.object.isText) :
    (latest (ps ++ [p])).filter (fun a ↦ s.isDefined a.object) =
      (latest ps).filter fun a ↦ s.isDefined a.object := by
  rw [latest_append, List.filter_append, List.filter_filter, List.filter_singleton, hd, cond_false,
    List.append_nil]
  refine List.filter_congr fun a ha ↦ ?_
  rw [Value.same_eq_of_isText _ (htext a ha)]
  by_cases he : p.object.string? = a.object.string?
  · rw [← isDefined_congr (htext a ha) he.symm] at hd
    simp [hd]
  · rw [beq_eq_false_iff_ne.2 he]
    simp

/-- The arrivals of a store are the latest accepted placements of the objects that are defined. -/
theorem arrivals_history {calls : List Call} (h : ∀ c ∈ calls, c.WellTyped) :
    (history calls).arrivals =
      (latest (placements {} calls)).filter fun a ↦ (history calls).isDefined a.object := by
  induction calls using List.reverseRecOn with
  | nil => rfl
  | append_singleton calls c ih =>
    have hcalls : ∀ d ∈ calls, d.WellTyped := fun d hd ↦ h d (by simp [hd])
    have hc : c.WellTyped := h c (by simp)
    have ih := ih hcalls
    have hr := reachable_history hcalls
    have htext : ∀ a ∈ latest (placements {} calls), a.object.isText := fun a ha ↦
      isText_of_mem_placements hcalls ((latest_sublist _).subset ha)
    rw [history_append, placements_append]
    change _ = (latest (_ ++ if c.accepted (history calls) then _ else [])).filter _
    cases hp : c.placement? with
    | none =>
      have hk := c.keeps_after hc hp (history calls)
      simp only [Option.toList_none, ite_self, List.append_nil]
      rw [hk.arrivals, ih]
      exact List.filter_congr fun a ha ↦ (hk.isDefined _ (htext a ha)).symm
    | some p =>
      rcases c.after_of_placement hc hp (history calls) with ⟨hacc, hpl⟩ | ⟨he, hacc⟩
      · rw [if_pos hacc]
        exact hpl.arrivals_latest hr.nested.placed hr.tidy htext ih
      · rw [he]
        split
        · next hyes =>
          rw [Option.toList_some, filter_latest_of_undefined (hacc hyes) htext]
          exact ih
        · rw [List.append_nil]
          exact ih

theorem isAmong_children_iff {x p : Value} (hx : x.isText) : x.isAmong (s.children p) ↔
    ∃ a ∈ s.arrivals, Value.alike a.container p ∧ a.object.string? = x.string? := by
  simp only [Value.isAmong, List.any_eq_true, children, List.mem_map, List.mem_filter,
    Value.alike_eq_of_isText_left hx, beq_iff_eq]
  constructor
  · rintro ⟨y, ⟨a, ⟨ha, hc⟩, rfl⟩, he⟩
    exact ⟨a, ha, hc, he.symm⟩
  · rintro ⟨a, ha, hc, he⟩
    exact ⟨a.object, ⟨a, ⟨ha, hc⟩, rfl⟩, he.symm⟩

theorem Tidy.same_parent_iff (ht : s.Tidy) (hs : s.Placed) {x p : Value} (hx : x.isText)
    (hd : s.isDefined x) (hp : p.IsPlace) :
    Value.same (s.parent x) p ↔ x.isAmong (s.children p) := by
  have hcont {a : Arrival} (ha : a ∈ s.arrivals) (hax : a.object.string? = x.string?) :
      Value.alike a.container p = Value.same (s.parent x) p := by
    obtain ⟨hcp, hc⟩ := ht.container a ha
    rw [Value.alike_eq_of_isPlace hcp hp,
      Value.same_eq_of_isPlace (hs.parent (.of_isText hx)) hp, hc,
      parent_congr s (find?_congr s (ht.isDefined a ha).1 hax)]
  rw [isAmong_children_iff hx]
  constructor
  · intro h
    obtain ⟨a, ha, hax⟩ := ht.listed x hx hd
    exact ⟨a, ha, by rwa [hcont ha hax], hax⟩
  · rintro ⟨a, ha, hc, hax⟩
    rwa [← hcont ha hax]

theorem Tidy.children_pairwise (ht : s.Tidy) (p : Value) :
    (s.children p).Pairwise fun x y ↦ ¬ Value.same x y := by
  refine List.pairwise_map.2 (List.Pairwise.filter _ (ht.once.imp_of_mem fun {a b} _ hb hne ↦ ?_))
  rw [Value.same_eq_of_isText _ (ht.isDefined b hb).1, beq_iff_eq]
  exact hne

/-- What is in a container are the defined objects whose latest accepted placement was there, each
of them once and in order of these placements; and of the defined objects exactly these have it as
their container. -/
theorem children_eq_latest_placements (calls : List Call) (h : ∀ c ∈ calls, c.WellTyped) (p : Value)
    (hp : p.IsPlace) :
    (history calls).children p = ((latest (placements {} calls)).filter fun a ↦
        Value.alike a.container p && (history calls).isDefined a.object).map (·.object) ∧
      ((history calls).children p).Pairwise (fun x y ↦ ¬ Value.same x y) ∧
      ∀ x, x.isText → (history calls).isDefined x →
        (Value.same ((history calls).parent x) p ↔ x.isAmong ((history calls).children p)) := by
  have hr := reachable_history h
  refine ⟨?_, hr.tidy.children_pairwise p, fun x hx hd ↦ ?_⟩
  · rw [children, arrivals_history h, List.filter_filter]
  · exact hr.tidy.same_parent_iff hr.nested.placed hx hd hp

/-- A coin that is put again where it is comes last there, and a refused move changes nothing. -/
theorem coin_put_again_comes_last :
    let calls : List Call :=
      [.define (.text "BOX") {}, .define (.text "COIN") { parent := .text "BOX" },
      .define (.text "KEY") { parent := .text "BOX" }, .move (.text "COIN") (.text "BOX"),
      .move (.text "BOX") (.text "KEY"), .move (.text "SWORD") (.text "BOX")]
    (∀ c ∈ calls, c.WellTyped) ∧ (Value.text "BOX").IsPlace ∧
      ((history calls).children (.text "BOX")).map Value.string? = [some "KEY", some "COIN"] := by
  intro calls
  have hc : ∀ c ∈ calls, c.WellTyped := by
    simp only [calls, List.mem_cons, List.not_mem_nil, or_false]
    rintro c (rfl | rfl | rfl | rfl | rfl | rfl)
    · exact ⟨rfl, Value.isPlace_none, ⟨_, rfl⟩, ⟨_, rfl⟩⟩
    · exact ⟨rfl, .of_isText rfl, ⟨_, rfl⟩, ⟨_, rfl⟩⟩
    · exact ⟨rfl, .of_isText rfl, ⟨_, rfl⟩, ⟨_, rfl⟩⟩
    · exact ⟨rfl, .of_isText rfl⟩
    · exact ⟨rfl, .of_isText rfl⟩
    · exact ⟨rfl, .of_isText rfl⟩
  refine ⟨hc, .of_isText rfl, ?_⟩
  rw [(children_eq_latest_placements calls hc (.text "BOX") (.of_isText rfl)).1]
  decide +kernel

theorem define_error_cases {x : Value} {a : Attributes} {f : Fault}
    (h : define x a s = .error f t) :
    s.refusal? x a = some f ∧ t = s ∨ s.refusal? x a = none ∧ t = s.leave x := by
  unfold define at h
  cases hr : s.refusal? x a with
  | some g =>
    simp only [hr, EStateM.Result.error.injEq] at h
    exact .inl ⟨by rw [h.1], h.2.symm⟩
  | none =>
    cases ha : a.record x s.made with
    | error g =>
      simp only [hr, ha, EStateM.Result.error.injEq] at h
      exact .inr ⟨rfl, h.2.symm⟩
    | ok r => simp [hr, ha] at h

theorem leave_eq_self {x : Value} (hx : x.isText)
    (h : s.isDefined x = false ∨ x.isAmong (s.children (s.parent x)) = false) : s.leave x = s := by
  cases hr : s.lookup? x with
  | none => simp only [leave, hr]
  | some r =>
    have hfind : s.find? x = some r := by rw [find?_eq_lookup? s hx, hr]
    have hpar : s.parent x = r.parent := by simp only [parent, hfind]
    have hnone : x.isAmong (s.children r.parent) = false := by
      simpa [isDefined, hfind, hpar] using h
    have herase :
        s.arrivals.eraseP (fun b ↦ Value.alike b.container r.parent && Value.alike b.object x) =
        s.arrivals := by
      refine List.eraseP_of_forall_not fun b hb hbx ↦ ?_
      rw [Bool.and_eq_true, Value.alike_eq_of_isText _ hx, beq_iff_eq] at hbx
      rw [(isAmong_children_iff hx).2 ⟨b, hb, hbx⟩] at hnone
      simp at hnone
    simp only [leave, hr, detach, herase]

theorem length_children_leave {x : Value} (hx : x.isText) (hd : s.isDefined x)
    (h : x.isAmong (s.children (s.parent x))) :
    ((s.leave x).children (s.parent x)).length < (s.children (s.parent x)).length := by
  obtain ⟨r, hr⟩ := Option.isSome_iff_exists.1 hd
  have hpar : s.parent x = r.parent := by simp only [parent, hr]
  obtain ⟨b, hb, hbc, hbx⟩ := (isAmong_children_iff hx).1 h
  rw [find?_eq_lookup? s hx] at hr
  rw [hpar] at hbc ⊢
  have hp : (Value.alike b.container r.parent && Value.alike b.object x) = true := by
    rw [hbc, Value.alike_eq_of_isText _ hx, hbx]
    simp
  obtain ⟨c, l, l', -, hc, he, he'⟩ := List.exists_of_eraseP
    (p := fun b ↦ Value.alike b.container r.parent && Value.alike b.object x) hb hp
  have hcc := (Bool.and_eq_true _ _ ▸ hc).1
  simp only [leave, hr, detach, children, he', List.length_map,
    List.filter_append, List.length_append]
  rw [he, List.filter_append, List.filter_cons, if_pos hcc]
  simp

/-- A definition that fails leaves all records as they were. It leaves the contents of all
containers as they were, and the whole store, exactly if it is refused before anything is done, or
if the object is not to be found in its container anyway, which among reachable stores is so only
for an object that is not defined. -/
theorem define_error_unchanged_iff {s t : Store} {x : Value} {a : Attributes} {f : Fault}
    (hx : x.isText) (h : define x a s = .error f t) :
    t.records = s.records ∧
      ((∀ p, t.children p = s.children p) ↔ (s.refusal? x a).isSome ∨ s.isDefined x = false ∨
        x.isAmong (s.children (s.parent x)) = false) ∧
      ((∀ p, t.children p = s.children p) ↔ t = s) ∧
      (Reachable s → s.isDefined x → x.isAmong (s.children (s.parent x))) := by
  have hreach (hr : Reachable s) (hd : s.isDefined x) : x.isAmong (s.children (s.parent x)) := by
    have hplace := hr.nested.placed.parent (.of_isText hx)
    rw [← hr.tidy.same_parent_iff hr.nested.placed hx hd hplace,
      Value.same_eq_of_isPlace hplace hplace]
    simp
  rcases define_error_cases h with ⟨hr, rfl⟩ | ⟨hr, rfl⟩
  · exact ⟨rfl, by simp [hr], by simp, hreach⟩
  · by_cases hd : s.isDefined x = false ∨ x.isAmong (s.children (s.parent x)) = false
    · rw [leave_eq_self hx hd]
      exact ⟨rfl, by simp [hd], by simp, hreach⟩
    · have hne : ¬ ∀ p, (s.leave x).children p = s.children p := by
        intro hall
        rw [not_or, Bool.not_eq_false, Bool.not_eq_false] at hd
        have hlt := length_children_leave hx hd.1 hd.2
        rw [hall] at hlt
        omega
      refine ⟨leave_records x, ⟨fun hall ↦ absurd hall hne, ?_⟩,
        ⟨fun hall ↦ absurd hall hne, ?_⟩, hreach⟩
      · rw [hr]
        rintro (hc | hc)
        · simp at hc
        · exact absurd hc hd
      · intro he p
        rw [he]

def coinInBox : Store :=
  history [.define (.text "BOX") {}, .define (.text "COIN") { parent := .text "BOX" }]

theorem define_coin_with_bad_flags :
    define (.text "COIN") { parent := .text "BOX", flags := .int 1 } coinInBox =
      .error .mismatch (coinInBox.leave (.text "COIN")) := by
  have hr : coinInBox.refusal? (.text "COIN") { parent := .text "BOX", flags := .int 1 } =
      none := by
    decide +kernel
  have ha : ({ parent := .text "BOX", flags := .int 1 } : Attributes).record
      (.text "COIN") coinInBox.made =
      .error .mismatch := rfl
  simp only [define, hr, ha]

/-- The coin's record still names the box, but the box is empty, and what comes after the coin is
not found. -/
theorem failed_definition_empties_box :
    ∃ f t, define (.text "COIN") { parent := .text "BOX", flags := .int 1 } coinInBox = .error f t ∧
      (coinInBox.children (.text "BOX")).map Value.string? = [some "COIN"] ∧
      t.children (.text "BOX") = [] ∧ (t.parent (.text "COIN")).string? = some "BOX" ∧
      (t.next (.text "COIN")).toOption.isNone := by
  refine ⟨_, _, define_coin_with_bad_flags, by decide +kernel, ?_,
    by decide +kernel, by decide +kernel⟩
  exact List.length_eq_zero_iff.1 (by decide +kernel)

theorem failed_definition_is_not_unchanged :
    (Value.text "COIN").isText ∧
      define (.text "COIN") { parent := .text "BOX", flags := .int 1 } coinInBox =
        .error .mismatch (coinInBox.leave (.text "COIN")) ∧
      coinInBox.leave (.text "COIN") ≠ coinInBox := by
  have h := define_error_unchanged_iff rfl define_coin_with_bad_flags
  refine ⟨rfl, define_coin_with_bad_flags, fun he ↦ ?_⟩
  have hc := h.2.1.1 (h.2.2.1.2 he)
  revert hc
  decide +kernel

end Fable.Store
